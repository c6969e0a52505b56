import FeastCalendar.Anchor.Table

/-!
From a rule, a year and the dates of the year's anchors to a date.
-/

namespace FeastCalendar

open Civil (Date)

namespace Rule

/-- The anchor that a span before the feast ends on: its own, or that of a feast placed by one. -/
def borrowedKey (key : Option Key) (feast : Option RuleSlot) : Except Failure Key :=
  match key, feast with
  | some key, _ => .ok key
  | none, some (.rule (.anchor key)) => .ok key
  | none, _ => .error (.invalid .nothingToBorrow)

/-- A day that the year lacks is a fault of the rule; a number too large for any date is not. -/
def fixedDate (year : Json) (month day : Int) : Except Failure Date :=
  match year.whole? with
  | none => .error (.wrongType .other)
  | some year => match Date.ofYmd year month day with
    | .ok date => .ok date
    | .error .beyondRange => .error (.date .beyondRange)
    | .error cause => .error (.invalid (.noSuchDate cause))

def dateIn (rule : Rule) (year : Json) (anchors : Anchors) (feast : Option RuleSlot) :
    Except Failure Date :=
  match rule with
  | fixed month day => fixedDate year month.val day.val
  | anchor key => anchors.getForRule key.val year
  | relative key offset weekday policy => do
    let moved ← inRange ((← anchors.getForRule key.val year).add? offset)
    match weekday with
    | some weekday => inRange (moved.align? weekday.val policy)
    | none => return moved
  | nthWeekdayAfter key weekday count => do
    inRange ((← anchors.getForRule key.val year).nthWeekdayAfter? weekday.val count.val)
  | beforeFeast days key => do
    let key ← borrowedKey key feast
    inRange ((← anchors.getForRule key.val year).add? (-(days.val - 1)))
  | raw text => .error (.fault { cause := .unreadText text.val })

end Rule

namespace RuleSlot

def dateIn (slot : RuleSlot) (year : Json) (anchors : Anchors) (feast : Option RuleSlot) :
    Except Failure Date :=
  match slot with
  | .rule placed => placed.dateIn year anchors feast
  | .stray value => .error (.wrongType (.rule value))

/-- The date of a rule; `feast` is the rule of the feast it may lean on. A fault carries the rule,
and the year unless it knows a year of its own. -/
def resolve (slot : RuleSlot) (year : Json) (anchors : Anchors) (feast : Option RuleSlot) :
    Except Failure Date :=
  (slot.dateIn year anchors feast).mapError fun failure =>
    failure.within none (Fault.yearGiven year) (some slot)

end RuleSlot

def Rule.resolve (rule : Rule) (year : Json) (anchors : Anchors) (feast : Option RuleSlot) :
    Except Failure Date :=
  RuleSlot.resolve (.rule rule) year anchors feast

end FeastCalendar
