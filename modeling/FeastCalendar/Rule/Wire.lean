import FeastCalendar.Rule.Checked

/-!
Rules as JSON objects with a type, in the form that novena indexes are written in.
-/

namespace FeastCalendar

inductive RuleKind where
  | fixed
  | anchor
  | relative
  | nthWeekdayAfter
  | beforeFeast
  | raw
deriving DecidableEq, Repr

namespace RuleKind

def all : List RuleKind := [fixed, anchor, relative, nthWeekdayAfter, beforeFeast, raw]

def name : RuleKind → String
  | fixed => "fixed"
  | anchor => "anchor"
  | relative => "relative"
  | nthWeekdayAfter => "nth_weekday_after"
  | beforeFeast => "before_feast"
  | raw => "raw"

def ofName? (name : Text) : Option RuleKind := all.find? (·.name = name)

end RuleKind

namespace Rule

def kind : Rule → RuleKind
  | fixed _ _ => .fixed
  | anchor _ => .anchor
  | relative _ _ _ _ => .relative
  | nthWeekdayAfter _ _ _ => .nthWeekdayAfter
  | beforeFeast _ _ => .beforeFeast
  | raw _ => .raw

def wireKind (value : Json) : Except Failure RuleKind :=
  match value with
  | .str name => match RuleKind.ofName? name with
    | some kind => .ok kind
    | none => Checked.refuse (.unknownRuleType value)
  | _ => Checked.refuse (.unknownRuleType value)

def need (object : Json) (kind : RuleKind) (field : String) : Except Failure Json :=
  match object.member? field with
  | some value => .ok value
  | none => Checked.refuse (.missingField kind.name field object)

/-- Arrays and objects are no names at all, so they are refused as a type. -/
def wirePolicy (value : Json) : Except Failure Json :=
  match value with
  | .arr _ => .error (.wrongType .other)
  | .obj _ => .error (.wrongType .other)
  | .str name => match Civil.SnapPolicy.ofWireName? name with
    | some policy => .ok (.str policy.name)
    | none => Checked.refuse (.unknownWirePolicy value)
  | _ => Checked.refuse (.unknownWirePolicy value)

def ofMembers (object : Json) : Except Failure Rule := do
  let optional := fun (field : String) => (object.member? field).getD .null
  let kind ← wireKind (optional "type")
  let need := need object kind
  match kind with
  | .fixed => do
    let month ← need "month"
    let day ← need "day"
    fixed? month day
  | .anchor => do
    let key ← need "anchor"
    anchor? key
  | .relative => do
    let policy ← wirePolicy ((object.member? "weekdayPolicy").getD (.str "onOrAfter"))
    let key ← need "anchor"
    let offset ← need "offsetDays"
    relative? key offset (optional "weekday") policy
  | .nthWeekdayAfter => do
    let key ← need "anchor"
    let weekday ← need "weekday"
    let count ← need "n"
    nthWeekdayAfter? key weekday count
  | .beforeFeast => do
    let days ← need "daysBefore"
    beforeFeast? days (optional "anchor")
  | .raw => return raw (.str (← ((object.member? "text").getD (.str "")).written))

def ofJson : Json → Except Failure Rule
  | .obj members => ofMembers (.obj members)
  | other => Checked.refuse (.ruleNotObject other)

def members : Rule → Keyed Text Json
  | fixed month day => [("month", .int month.val), ("day", .int day.val)]
  | anchor key => [("anchor", .str key.val)]
  | relative key offset none _ => [("anchor", .str key.val), ("offsetDays", .int offset)]
  | relative key offset (some weekday) policy =>
    [("anchor", .str key.val), ("offsetDays", .int offset), ("weekday", .int weekday.val),
      ("weekdayPolicy", .str policy.wireName)]
  | nthWeekdayAfter key weekday count =>
    [("anchor", .str key.val), ("weekday", .int weekday.val), ("n", .int count.val)]
  | beforeFeast days none => [("daysBefore", .int days.val)]
  | beforeFeast days (some key) => [("daysBefore", .int days.val), ("anchor", .str key.val)]
  | raw text => [("text", text.val)]

def toJson (rule : Rule) : Json := .obj (("type", .str rule.kind.name) :: rule.members)

end Rule

namespace RuleSlot

def toJson : RuleSlot → Except Failure Json
  | .rule placed => .ok placed.toJson
  | .stray value => .error (.wrongType (.rule value))

end RuleSlot

end FeastCalendar
