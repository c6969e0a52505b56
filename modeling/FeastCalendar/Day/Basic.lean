import FeastCalendar.Observance.Year

/-!
One day of the calendar with its season and its observances.
-/

namespace FeastCalendar

open Civil (Date)

structure Day where
  date : Date
  /-- Absent where the season is none of the five. -/
  season : Option Season
  observances : List Observance
deriving DecidableEq

namespace Day

def ofTable (date : Date) (anchors : Anchors) (table : ObservanceTable) : Except Failure Day := do
  return ⟨date, some (← Season.ofDate date anchors), table.on date⟩

/-- A letter for the highest rank, or a star where only a season begins. -/
def mark (day : Day) : String :=
  match day.observances with
  | [] => ""
  | top :: _ =>
    if top.seasonMarker then "*"
    else match top.rank with
      | .triduum => "T"
      | .solemnity => "S"
      | .feast => "F"
      | .memorial => "m"
      | .optionalMemorial => "o"
      | .sunday => ""
      | .weekday => ""

end Day

end FeastCalendar
