import FeastCalendar.Civil.Date

/-!
Dates as text: year, month and day with hyphens between, in four and two and two digits. Reading
takes any integers between the hyphens.
-/

namespace FeastCalendar.Civil

def Refusal.message : Refusal → String
  | year given => "year " ++ Text.intText given ++ " is out of range"
  | month => "month must be in 1..12"
  | day => "day is out of range for month"
  | numeral fault => fault.message
  | tooFewParts count =>
    "not enough values to unpack (expected 3, got " ++ toString count ++ ")"
  | tooManyParts => "too many values to unpack (expected 3)"
  | beyondRange => "date value out of range"

namespace Date

def iso (date : Date) : String :=
  Text.zeroPadded 4 date.year ++ "-" ++ Text.zeroPadded 2 date.month ++ "-" ++
    Text.zeroPadded 2 date.day

def monthDay (date : Date) : String :=
  Text.zeroPadded 2 date.month ++ "-" ++ Text.zeroPadded 2 date.day

/-- The date of a text; of several faults the leftmost is told, and a number at fault comes before
a wrong count of parts, as far as the parts were needed to see that there are too many. -/
def ofText (text : String) : Except Refusal Date := do
  let numbers ← ((Text.pieces '-' text).take 4).mapM fun part =>
    (Text.readInt part).mapError .numeral
  match numbers with
  | [year, month, day] => ofYmd year month day
  | _ :: _ :: _ :: _ => .error .tooManyParts
  | few => .error (.tooFewParts few.length)

end Date

end FeastCalendar.Civil
