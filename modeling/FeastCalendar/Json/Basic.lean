import FeastCalendar.Keyed
import FeastCalendar.Text.Basic
import FeastCalendar.Decimal.Binary64

/-!
JSON values. Integers have any size and differ from floating-point numbers; the members of an
object keep their order.
-/

namespace FeastCalendar

open Decimal (Binary64)

inductive Json where
  | null
  | bool (value : Bool)
  | int (value : Int)
  | float (value : Binary64)
  | str (text : Text)
  | arr (items : List Json)
  | obj (members : List (Text × Json))
deriving Repr, Inhabited

namespace Json

mutual

/-- Whether two values are one and the same, down to the order of members. -/
def identical : Json → Json → Bool
  | null, null => true
  | bool left, bool right => left == right
  | int left, int right => left == right
  | float left, float right => decide (left = right)
  | str left, str right => left == right
  | arr left, arr right => identicalItems left right
  | obj left, obj right => identicalMembers left right
  | _, _ => false

def identicalItems : List Json → List Json → Bool
  | [], [] => true
  | left :: lefts, right :: rights => identical left right && identicalItems lefts rights
  | _, _ => false

def identicalMembers : List (Text × Json) → List (Text × Json) → Bool
  | [], [] => true
  | (name, left) :: lefts, (key, right) :: rights =>
    name == key && (identical left right && identicalMembers lefts rights)
  | _, _ => false

end

mutual

theorem identical_self : (value : Json) → identical value value = true
  | null => rfl
  | bool _ => by simp [identical]
  | int _ => by simp [identical]
  | float _ => by simp [identical]
  | str _ => by simp [identical]
  | arr items => by simpa [identical] using identicalItems_self items
  | obj members => by simpa [identical] using identicalMembers_self members

theorem identicalItems_self : (items : List Json) → identicalItems items items = true
  | [] => rfl
  | item :: items => by simp [identicalItems, identical_self item, identicalItems_self items]

theorem identicalMembers_self :
    (members : List (Text × Json)) → identicalMembers members members = true
  | [] => rfl
  | (_, value) :: members => by
    simp [identicalMembers, identical_self value, identicalMembers_self members]

end

mutual

theorem eq_of_identical : (left right : Json) → identical left right = true → left = right
  | null, right => by cases right <;> simp [identical]
  | bool _, right => by cases right <;> simp [identical]
  | int _, right => by cases right <;> simp [identical]
  | float _, right => by cases right <;> simp [identical]
  | str _, right => by cases right <;> simp [identical]
  | arr items, right => by
    cases right with
    | arr others => simpa [identical] using eq_of_identicalItems items others
    | _ => simp [identical]
  | obj members, right => by
    cases right with
    | obj others => simpa [identical] using eq_of_identicalMembers members others
    | _ => simp [identical]

theorem eq_of_identicalItems :
    (lefts rights : List Json) → identicalItems lefts rights = true → lefts = rights
  | [], rights => by cases rights <;> simp [identicalItems]
  | left :: lefts, [] => by simp [identicalItems]
  | left :: lefts, right :: rights => by
    simp only [identicalItems, Bool.and_eq_true, List.cons.injEq]
    exact fun same => ⟨eq_of_identical left right same.1, eq_of_identicalItems lefts rights same.2⟩

theorem eq_of_identicalMembers : (lefts rights : List (Text × Json)) →
    identicalMembers lefts rights = true → lefts = rights
  | [], rights => by cases rights <;> simp [identicalMembers]
  | (_, left) :: lefts, [] => by simp [identicalMembers]
  | (name, left) :: lefts, (key, right) :: rights => by
    simp only [identicalMembers, Bool.and_eq_true, beq_iff_eq, List.cons.injEq, Prod.mk.injEq]
    exact fun same => ⟨⟨same.1, eq_of_identical left right same.2.1⟩,
      eq_of_identicalMembers lefts rights same.2.2⟩

end

theorem identical_iff (left right : Json) : identical left right = true ↔ left = right :=
  ⟨eq_of_identical left right, fun same => same ▸ identical_self left⟩

instance : DecidableEq Json := fun left right => decidable_of_iff _ (identical_iff left right)

def member? : Json → Text → Option Json
  | obj members, key => Keyed.find? members key
  | _, _ => none

def typeName : Json → String
  | null => "NoneType"
  | bool _ => "bool"
  | int _ => "int"
  | float _ => "float"
  | str _ => "str"
  | arr _ => "list"
  | obj _ => "dict"

/-- Null, false, zero and whatever is empty count as nothing. -/
def isNothing : Json → Bool
  | null => true
  | bool value => !value
  | int value => value == 0
  | float value => value.significand == 0 && value.isFinite
  | str text => text.isEmpty
  | arr items => items.isEmpty
  | obj members => members.isEmpty

/-- What a value lists: the items of an array, the characters of a string, the keys of an object. -/
def items? : Json → Option (List Json)
  | arr items => some items
  | str text => some (text.map fun point => str [point])
  | obj members => some (members.map fun entry => str entry.1)
  | _ => none

/-- The integer a value counts as where a number is called for: truth values count as 0 and 1. -/
def whole? : Json → Option Int
  | int value => some value
  | bool value => some (if value then 1 else 0)
  | _ => none

def texts (texts : List Text) : Json := arr (texts.map str)

def strings (strings : List String) : Json := texts (strings.map Text.ofString)

end Json

end FeastCalendar
