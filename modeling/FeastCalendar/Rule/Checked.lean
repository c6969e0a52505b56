import FeastCalendar.Fault

/-!
Rules from loose values: every number and key is checked, in the order of the fields, and the first
that is wrong is told. Truth values are not integers here.
-/

namespace FeastCalendar

namespace Checked

def refuse {α : Type} (cause : Invalid) : Except Failure α := .error (.raised cause none none)

def integer (field : String) : Json → Except Failure Int
  | .int n => .ok n
  | other => refuse (.notInteger field other)

def between (field : String) (low high : Int) (value : Json) : Except Failure (Between low high) := do
  let n ← integer field value
  if range : low ≤ n ∧ n ≤ high then return ⟨n, range⟩
  else refuse (.outsideRange field low (some high) n)

def count (field : String) (value : Json) : Except Failure Count := do
  let n ← integer field value
  if range : 1 ≤ n then return ⟨n, range⟩ else refuse (.outsideRange field 1 none n)

def key (field : String) : Json → Except Failure Key
  | .str text => if filled : text ≠ [] then .ok ⟨text, filled⟩ else refuse (.emptyKey field (.str text))
  | other => refuse (.emptyKey field other)

def optional {α : Type} (check : Json → Except Failure α) : Json → Except Failure (Option α)
  | .null => .ok none
  | value => return some (← check value)

def policy : Json → Except Failure Civil.SnapPolicy
  | .str name => match Civil.SnapPolicy.ofName? name with
    | some policy => .ok policy
    | none => refuse (.unknownPolicy (.str name))
  | other => refuse (.unknownPolicy other)

/-- Moves a date to a weekday by a policy given by name. -/
def align (date : Civil.Date) (weekday : Int) (policy : Json) : Except Failure Civil.Date :=
  match policy with
  | .str name => match Civil.SnapPolicy.ofName? name with
    | some policy => inRange (date.align? weekday policy)
    | none => refuse (.unknownSnap policy)
  | _ => refuse (.unknownSnap policy)

end Checked

namespace Rule

def fixed? (month day : Json) : Except Failure Rule := do
  return fixed (← Checked.between "fixed.month" 1 12 month) (← Checked.between "fixed.day" 1 31 day)

def anchor? (key : Json) : Except Failure Rule := do
  return anchor (← Checked.key "anchor.anchor" key)

def relative? (key offset weekday policy : Json) : Except Failure Rule := do
  return relative (← Checked.key "relative.anchor" key)
    (← Checked.integer "relative.offset_days" offset)
    (← Checked.optional (Checked.between "relative.weekday" 0 6) weekday)
    (← Checked.policy policy)

def nthWeekdayAfter? (key weekday count : Json) : Except Failure Rule := do
  return nthWeekdayAfter (← Checked.key "nth_weekday_after.anchor" key)
    (← Checked.between "nth_weekday_after.weekday" 0 6 weekday)
    (← Checked.count "nth_weekday_after.n" count)

def beforeFeast? (days key : Json) : Except Failure Rule := do
  return beforeFeast (← Checked.count "before_feast.days_before" days)
    (← Checked.optional (Checked.key "before_feast.anchor") key)

end Rule

end FeastCalendar
