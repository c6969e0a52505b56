import FeastCalendar.Easter

/-!
Anchors: the named days of a year that rules refer to, and how each is placed.
-/

namespace FeastCalendar

open Civil (Date)

/-- How one named anchor is placed in a year. The numbers are not checked before they are used. -/
inductive Anchor where
  | fixed (month day : Int) (dependsOn : List Text)
  | easterOffset (days : Int) (dependsOn : List Text)
  /-- The first Sunday from one day of a month to another, else a third day. -/
  | sundayInWindow (month firstDay lastDay fallbackDay : Int) (dependsOn : List Text)
  /-- A weekday after a day of a month, on the day itself only if `inclusive`. -/
  | weekdayAfter (month day weekday : Int) (inclusive : Bool) (dependsOn : List Text)
  | anchorOffset (base : Text) (days : Int)
deriving DecidableEq

namespace Anchor

def dependsOn : Anchor → List Text
  | fixed _ _ names => names
  | easterOffset _ names => names
  | sundayInWindow _ _ _ _ names => names
  | weekdayAfter _ _ _ _ names => names
  | anchorOffset base _ => [base]

def dayOf (year month day : Int) : Except Failure Date := (Date.ofYmd year month day).mapError .date

def firstSunday (year month : Int) : Nat → Int → Except Failure (Option Date)
  | 0, _ => .ok none
  | count + 1, day => do
    let date ← dayOf year month day
    if date.weekday = 0 then return some date
    firstSunday year month count (day + 1)

/-- Seven days in a row hold a Sunday, so a longer window need not be searched. -/
def windowSize (firstDay lastDay : Int) : Nat := min 7 (lastDay - firstDay + 1).toNat

def resolve (anchor : Anchor) (year : Int) (easter : Date) (placed : Keyed Text Date) :
    Except Failure Date :=
  match anchor with
  | fixed month day _ => dayOf year month day
  | easterOffset days _ => inRange (easter.add? days)
  | sundayInWindow month firstDay lastDay fallbackDay _ => do
    match ← firstSunday year month (windowSize firstDay lastDay) firstDay with
    | some date => return date
    | none => dayOf year month fallbackDay
  | weekdayAfter month day weekday inclusive _ => do
    inRange ((← dayOf year month day).nextWeekday? weekday inclusive)
  | anchorOffset base days =>
    match Keyed.find? placed base with
    | some date => inRange (date.add? days)
    | none => .error (.fault { cause := .unknownAnchor base, year := some (.int year) })

private def keyList (names : List Text) : String := Text.tupleText (names.map Text.quote)

def describe : Anchor → String
  | fixed month day names => Text.recordText "FixedAnchor"
      [("month", Text.intText month), ("day", Text.intText day), ("depends_on", keyList names)]
  | easterOffset days names => Text.recordText "EasterOffsetAnchor"
      [("offset_days", Text.intText days), ("depends_on", keyList names)]
  | sundayInWindow month firstDay lastDay fallbackDay names => Text.recordText "SundayInWindowAnchor"
      [("month", Text.intText month), ("first_day", Text.intText firstDay),
        ("last_day", Text.intText lastDay), ("fallback_day", Text.intText fallbackDay),
        ("depends_on", keyList names)]
  | weekdayAfter month day weekday inclusive names => Text.recordText "WeekdayAfterAnchor"
      [("month", Text.intText month), ("day", Text.intText day),
        ("weekday", Text.intText weekday), ("inclusive", if inclusive then "True" else "False"),
        ("depends_on", keyList names)]
  | anchorOffset base days => Text.recordText "AnchorOffsetAnchor"
      [("base", Text.quote base), ("offset_days", Text.intText days)]

end Anchor

end FeastCalendar
