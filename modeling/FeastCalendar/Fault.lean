import FeastCalendar.Civil.Iso
import FeastCalendar.Json.Reader
import FeastCalendar.Rule.Basic

/-!
Faults and failures. A fault is the calendar's own complaint about one entry, with the entry, year
and rule it concerns; a batch records it and goes on. Every other failure ends the call.
-/

namespace FeastCalendar

open Civil (Date Refusal)

inductive Invalid where
  | notInteger (field : String) (value : Json)
  | outsideRange (field : String) (low : Int) (high : Option Int) (value : Int)
  | emptyKey (field : String) (value : Json)
  | unknownPolicy (value : Json)
  | unknownWirePolicy (value : Json)
  | unknownSnap (value : Json)
  | missingField (kind field : String) (object : Json)
  | unknownRuleType (value : Json)
  | ruleNotObject (value : Json)
  | novenaNotObject (value : Json)
  | indexNotArray
  | yearOutOfRange
  | noSuchDate (cause : Refusal)
  | nothingToBorrow
  | duration (value : Json)
  | cycle (path : List Text)
deriving DecidableEq

inductive FaultKind where
  | general
  | unknownAnchor
  | unresolvable
  | brokenInvariant
  | invalidParameter
deriving DecidableEq, Repr

inductive Cause where
  | unknownAnchor (key : Text)
  | unreadText (text : Json)
  | startAfterFeast (start feast : Date)
  | spanMismatch (span duration : Int)
  | invalid (cause : Invalid)
  /-- A fault in words of the caller's own. -/
  | stated (kind : FaultKind) (text : String)
deriving DecidableEq

abbrev maxDuration : Int := 4000

namespace Invalid

def message : Invalid → String
  | notInteger field value => field ++ " must be an integer, got " ++ value.literal
  | outsideRange field low high value =>
    let bound := match high with
      | some high => Text.intText low ++ ".." ++ Text.intText high
      | none => ">= " ++ Text.intText low
    field ++ " must be " ++ bound ++ ", got " ++ Text.intText value
  | emptyKey field value => field ++ " must be a non-empty string, got " ++ value.literal
  | unknownPolicy value =>
    "relative.weekday_policy must be one of ('on_or_after', 'on_or_before'), got " ++ value.literal
  | unknownWirePolicy value => "Unknown weekdayPolicy " ++ value.literal
  | unknownSnap value => "Unknown weekday policy " ++ value.literal
  | missingField kind field object =>
    kind ++ " rule is missing '" ++ field ++ "': " ++ object.literal
  | unknownRuleType value => "Unknown rule type " ++ value.literal
  | ruleNotObject value => "Rule must be a JSON object, got " ++ value.typeName
  | novenaNotObject value => "Novena entry must be a JSON object, got " ++ value.typeName
  | indexNotArray => "Novena index must be a JSON array"
  | yearOutOfRange => "year must be 1..9999"
  | noSuchDate cause => "No such date: " ++ cause.message
  | nothingToBorrow =>
    "before_feast requires an anchor, or a feast rule of type 'anchor' to borrow one from"
  | duration value =>
    "durationDays must be 1.." ++ Text.intText maxDuration ++ ", got " ++ value.literal
  | cycle path => "Anchor cycle: " ++ Text.joinWith " -> " (path.map Text.shown)

def quoted : Invalid → List Json
  | notInteger _ value => [value]
  | outsideRange _ _ _ value => [.int value]
  | emptyKey _ value => [value]
  | unknownPolicy value => [value]
  | unknownWirePolicy value => [value]
  | unknownSnap value => [value]
  | missingField _ _ object => [object]
  | unknownRuleType value => [value]
  | duration value => [value]
  | _ => []

end Invalid

namespace Cause

def kind : Cause → FaultKind
  | unknownAnchor _ => .unknownAnchor
  | unreadText _ => .unresolvable
  | startAfterFeast _ _ => .brokenInvariant
  | spanMismatch _ _ => .brokenInvariant
  | invalid _ => .invalidParameter
  | stated kind _ => kind

def message : Cause → String
  | unknownAnchor key => "Unknown anchor '" ++ key.shown ++ "'"
  | unreadText text => "Unparsed rule text cannot be resolved: " ++ text.literal
  | startAfterFeast start feast => "start after feast (" ++ start.iso ++ " > " ++ feast.iso ++ ")"
  | spanMismatch span duration =>
    "inclusive span is " ++ Text.intText span ++ " days but durationDays=" ++ Text.intText duration
  | invalid cause => cause.message
  | stated _ text => text

end Cause

/-- A year is whatever the caller gave, null counting as none. -/
structure Fault where
  cause : Cause
  entry : Option Text := none
  year : Option Json := none
  rule : Option RuleSlot := none
deriving DecidableEq

namespace Fault

def yearGiven : Json → Option Json
  | .null => none
  | year => some year

def within (fault : Fault) (entry : Option Text) (year : Option Json) (rule : Option RuleSlot) :
    Fault :=
  { fault with
    entry := fault.entry <|> entry
    year := fault.year <|> year
    rule := fault.rule <|> rule }

def kind (fault : Fault) : FaultKind := fault.cause.kind

def bareMessage (fault : Fault) : String := fault.cause.message

def circumstances (fault : Fault) : List String :=
  (fault.entry.map fun entry => "entry=" ++ entry.shown).toList ++
    (fault.year.map fun year => "year=" ++ year.display.shown).toList ++
    (fault.rule.map fun rule => "rule=" ++ rule.describe).toList

def message (fault : Fault) : String :=
  match fault.circumstances with
  | [] => fault.bareMessage
  | parts => fault.bareMessage ++ " (" ++ Text.joinWith ", " parts ++ ")"

end Fault

inductive LookupFailure where
  | noDate (key : Text)
  | noDefinition (name : Text) (available : List Text)
  | alreadyDefined (name : Text)
  | noAttribute (name : Text) (available : List Text)
deriving DecidableEq

namespace LookupFailure

def message : LookupFailure → String
  | noDate key => key.shown
  | noDefinition name available =>
    "Unknown anchor definition '" ++ name.shown ++ "'. Available: " ++ (Json.texts available).literal
  | alreadyDefined name =>
    "Anchor '" ++ name.shown ++ "' already exists. Use overwrite=True to replace."
  | noAttribute name available =>
    "Unknown attribute '" ++ name.shown ++ "'. Available: " ++ (Json.texts available).literal

end LookupFailure

inductive WrongType where
  | year (given : Json)
  | rule (given : Json)
  | other
deriving DecidableEq

namespace WrongType

def message? : WrongType → Option String
  | year given => some ("year must be an int, got " ++ given.typeName)
  | rule given => some ("Unknown rule type: " ++ given.typeName)
  | other => none

end WrongType

inductive Failure where
  | fault (fault : Fault)
  | date (cause : Refusal)
  | lookup (cause : LookupFailure)
  | wrongType (cause : WrongType)
  | noRegistry
  | json (cause : Json.ReadFault)
  | numeral (cause : Text.NumeralFault)
  /-- What leads on from one thing to the next leads too far. -/
  | tooDeep
  | tooWide
  | unwritable
deriving DecidableEq

namespace Failure

def noRegistryMessage : String := "Anchor registry not initialized"

def unwritableMessage : String :=
  "Exceeds the limit (" ++ toString Text.digitLimit ++
    " digits) for integer string conversion; use sys.set_int_max_str_digits() to increase the limit"

def invalid (cause : Invalid) : Failure := fault { cause := .invalid cause }

/-- The failure of raising a fault, whose message is written on the spot. -/
def raised (cause : Invalid) (entry : Option Text) (year : Option Json) : Failure :=
  if cause.quoted.all Json.isWritable then
    fault { cause := .invalid cause, entry := entry, year := year }
  else unwritable

def within (failure : Failure) (entry : Option Text) (year : Option Json)
    (rule : Option RuleSlot) : Failure :=
  match failure with
  | fault cause => fault (cause.within entry year rule)
  | other => other

end Failure

def Json.written (value : Json) : Except Failure Text :=
  if value.isWritable then .ok value.display else .error .unwritable

def inRange : Option Date → Except Failure Date
  | some date => .ok date
  | none => .error (.date .beyondRange)

theorem inRange_eq_ok {found : Option Date} {date : Date} :
    inRange found = .ok date ↔ found = some date := by
  cases found <;> simp [inRange]

theorem inRange_eq_error {found : Option Date} {failure : Failure} :
    inRange found = .error failure ↔ found = none ∧ failure = .date .beyondRange := by
  cases found <;> simp [inRange, eq_comm]

end FeastCalendar
