import FeastCalendar.Almanac

/-!
A month as a grid of weeks, Sunday first, marked with the ranks of its days and the number of
novenas under way, and under it the observances of the month.
-/

namespace FeastCalendar.MonthGrid

open Civil (Date)

/-- Text cut to a width; a negative width leaves out so many characters at the end. -/
def cut (text : String) (width : Int) : String :=
  let size := if 0 ≤ width then width else (text.length : Int) + width
  String.ofList (text.toList.take size.toNat)

abbrev Cell := String × String

def cell (top bottom : String) (width : Int) : Cell :=
  (Text.padRight width.toNat (cut top width), Text.padRight width.toNat (cut bottom width))

/-- A width lies within this bound. -/
abbrev widthLimit : Int := Int.pow 2 63

def cellWithin (top bottom : String) (width : Int) : Except Failure Cell :=
  if -widthLimit ≤ width ∧ width < widthLimit then .ok (cell top bottom width) else .error .tooWide

abbrev cellWidth : Int := 6

def blank : Cell := cell "" "" cellWidth

def columnHeads : String := "Su     Mo     Tu     We     Th     Fr     Sa"

def dayCell (date : Date) (mark : String) (running : Nat) : Cell :=
  cell (Text.padLeft 2 (Text.intText date.day) ++ mark)
    (if running = 0 then "" else "n" ++ toString running) cellWidth

/-- Rows of seven cells, the first day in the column of its weekday, blanks around the days. -/
def weeks (firstColumn : Nat) (days : List Cell) : List (List Cell) :=
  let cells := List.replicate firstColumn blank ++ days
  (List.range ((cells.length + 6) / 7)).map fun row =>
    (List.range 7).map fun column => cells.getD (7 * row + column) blank

def weekLines (week : List Cell) : List String :=
  [Text.joinWith " " (week.map Prod.fst), Text.joinWith " " (week.map Prod.snd)]

def gridLines (title : String) (rows : List (List Cell)) : List String :=
  [title, columnHeads, String.ofList (List.replicate columnHeads.length '-')] ++
    rows.flatMap weekLines ++ [""]

def note (date : Date) (observance : Observance) : String :=
  date.iso ++ "  " ++ Text.padRight 17 observance.rank.label ++ " " ++ observance.title

def notes (day : Day) : List String :=
  (day.observances.filter fun observance => !observance.seasonMarker).map (note day.date)

/-- The dates of a month, each of which must be followed by another date. -/
def monthDates (year month : Int) : Except Failure (List Date) := do
  let first ← Anchor.dayOf year month 1
  (List.range (Civil.monthLength year month).toNat).mapM fun (days : Nat) =>
    inRange (first.add? days)

def title (year month : Int) : String :=
  "Gregorian month  " ++ Text.intText year ++ "-" ++ Text.zeroPadded 2 month ++
    "   (S solemnity, F feast, m memorial, nK = K novenas running)"

def lines (title : String) (dates : List Date) (anchors : Anchors) (table : ObservanceTable)
    (novenas : List NovenaInstance) : Except Failure (List String) := do
  let days ← dates.mapM fun date => do
    let day ← Day.ofTable date anchors table
    let running ← NovenaCalendar.active novenas date
    let _ ← inRange (date.add? 1)
    return (day, dayCell date day.mark running.length)
  let column := ((dates.head?.map Date.weekday).getD 0).toNat
  return gridLines title (weeks column (days.map Prod.snd)) ++ days.flatMap fun day => notes day.1

def build (almanac : Almanac) (year month : Int) : Except Failure (List String) := do
  let dates ← monthDates year month
  let table ← almanac.observances (.int year)
  let novenas := (← almanac.batch (.int year) NovenaIndex.bundled).instances
  lines (title year month) dates (.table (← almanac.table (.int year))) table novenas

end FeastCalendar.MonthGrid
