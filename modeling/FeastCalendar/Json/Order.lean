import FeastCalendar.Json.Basic

/-!
Comparison of JSON values by what they stand for: numbers and truth values by their size, strings
by code point, arrays item by item. Values of other kinds are equal or cannot be compared.
-/

namespace FeastCalendar.Json

open Decimal (Binary64)

/-- The size of a number; `finite n s` is `n * 2 ^ s`. -/
inductive Size where
  | finite (significand scale : Int)
  | infinite (negative : Bool)
  | undefined

namespace Size

def ofBinary (x : Binary64) : Size :=
  if x.isNaN then undefined
  else if !x.isFinite then infinite x.isNegative
  else finite (if x.isNegative then -(x.significand : Int) else x.significand) x.scale

/-- No comparison with an undefined size holds. -/
def compare? : Size → Size → Option Ordering
  | finite m p, finite n q =>
    let low := min p q
    some (Ord.compare (m * Int.pow 2 (p - low).toNat) (n * Int.pow 2 (q - low).toNat))
  | finite _ _, infinite negative => some (if negative then .gt else .lt)
  | infinite negative, finite _ _ => some (if negative then .lt else .gt)
  | infinite left, infinite right =>
    some (if left = right then .eq else if left then .lt else .gt)
  | _, _ => none

end Size

def size? : Json → Option Size
  | int value => some (.finite value 0)
  | bool value => some (.finite (if value then 1 else 0) 0)
  | float value => some (.ofBinary value)
  | _ => none

mutual

/-- Equality of what two values stand for; the order of an object's members does not matter. -/
def alike : Json → Json → Bool
  | null, right => right = null
  | str left, right => right = str left
  | arr lefts, right => match right with
    | arr rights => alikeItems lefts rights
    | _ => false
  | obj lefts, right => match right with
    | obj rights => lefts.length == rights.length && alikeMembers lefts rights
    | _ => false
  | left, right => match size? left, size? right with
    | some m, some n => m.compare? n == some .eq
    | _, _ => false

def alikeItems : List Json → List Json → Bool
  | [], rights => rights.isEmpty
  | left :: lefts, rights => match rights with
    | [] => false
    | right :: rights => alike left right && alikeItems lefts rights

def alikeMembers : List (Text × Json) → List (Text × Json) → Bool
  | [], _ => true
  | (name, left) :: lefts, rights =>
    (match Keyed.find? rights name with
      | some right => alike left right
      | none => false) && alikeMembers lefts rights

end

mutual

def compare? : Json → Json → Option Ordering
  | str left, right => match right with
    | str right => some (if left < right then .lt else if right < left then .gt else .eq)
    | _ => none
  | arr lefts, right => match right with
    | arr rights => compareItems? lefts rights
    | _ => none
  | left, right =>
    if alike left right then some .eq
    else match size? left, size? right with
      | some m, some n => some ((m.compare? n).getD .eq)
      | _, _ => none

def compareItems? : List Json → List Json → Option Ordering
  | [], rights => some (if rights.isEmpty then .eq else .lt)
  | left :: lefts, rights => match rights with
    | [] => some .gt
    | right :: rights =>
      if alike left right then compareItems? lefts rights else compare? left right

end

end FeastCalendar.Json
