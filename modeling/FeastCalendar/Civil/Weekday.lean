import FeastCalendar.Civil.Date

/-!
Days of the week, Sunday being 0, and the searches for them. Day 1 of the calendar is a Monday.
-/

namespace FeastCalendar.Civil

def weekdayNames : List String :=
  ["sunday", "monday", "tuesday", "wednesday", "thursday", "friday", "saturday"]

/-- How a date is moved to a weekday: forward or backward, not at all if it has the weekday. -/
inductive SnapPolicy where
  | onOrAfter
  | onOrBefore
deriving DecidableEq, Repr

namespace SnapPolicy

def name : SnapPolicy → String
  | onOrAfter => "on_or_after"
  | onOrBefore => "on_or_before"

def wireName : SnapPolicy → String
  | onOrAfter => "onOrAfter"
  | onOrBefore => "onOrBefore"

def all : List SnapPolicy := [onOrAfter, onOrBefore]

def ofName? (name : Text) : Option SnapPolicy := all.find? (·.name = name)

def ofWireName? (name : Text) : Option SnapPolicy := all.find? (·.wireName = name)

end SnapPolicy

namespace Date

def weekday (date : Date) : Int := date.number % 7

theorem weekday_bounds (date : Date) : 0 ≤ date.weekday ∧ date.weekday < 7 := by
  unfold weekday
  omega

theorem weekday_of_add? {date later : Date} {days : Int} (moved : date.add? days = some later) :
    later.weekday = (date.weekday + days) % 7 := by
  unfold weekday
  rw [number_of_ofNumber? moved]
  omega

def weekdayName (date : Date) : String := weekdayNames.getD date.weekday.toNat ""

/-- Forward to a weekday, taken modulo 7; a date that has it moves a week unless `sameDay`. -/
def nextWeekday? (date : Date) (weekday : Int) (sameDay : Bool) : Option Date :=
  let ahead := (weekday - date.weekday) % 7
  date.add? (if ahead = 0 && !sameDay then 7 else ahead)

def prevWeekday? (date : Date) (weekday : Int) (sameDay : Bool) : Option Date :=
  let behind := (date.weekday - weekday) % 7
  date.add? (-(if behind = 0 && !sameDay then 7 else behind))

def align? (date : Date) (weekday : Int) : SnapPolicy → Option Date
  | .onOrAfter => date.nextWeekday? weekday true
  | .onOrBefore => date.prevWeekday? weekday true

/-- Counts the days of a weekday from `date` on, itself included, up to the `count`th. -/
def scanWeekday (weekday count : Int) : Nat → Date → Option Date
  | 0, _ => none
  | fuel + 1, date =>
    if date.weekday = weekday && count = 1 then some date
    else
      match date.add? 1 with
      | some next => scanWeekday weekday (if date.weekday = weekday then count - 1 else count) fuel next
      | none => none

def nthWeekdayAfter? (date : Date) (weekday count : Int) : Option Date :=
  match date.add? 1 with
  | some next => scanWeekday weekday count (lastDay - date.number).toNat next
  | none => none

/-- Every seventh day from `date` on that comes before `stop`, `limit` of them at most; nothing if
a step that is called for leaves the calendar. The last of `limit` days calls for no step. -/
def weeklyUntil? (stop : Date) : Nat → Date → Option (List Date)
  | 0, _ => some []
  | limit + 1, date =>
    if date < stop then
      if limit = 0 then some [date]
      else match date.add? 7 with
        | some next => (weeklyUntil? stop limit next).map (date :: ·)
        | none => none
    else some []

def firstSundaysUntil? (date stop : Date) (limit : Nat) : Option (List Date) :=
  match date.nextWeekday? 0 true with
  | some sunday => weeklyUntil? stop limit sunday
  | none => none

def sundaysUntil? (date stop : Date) : Option (List Date) :=
  firstSundaysUntil? date stop ((stop.number - date.number).toNat + 1)

end Date

end FeastCalendar.Civil
