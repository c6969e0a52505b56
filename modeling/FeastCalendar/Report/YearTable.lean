import FeastCalendar.Anchor.Table

/-!
A table of anchors over a range of years, one line a year.
-/

namespace FeastCalendar.YearTable

open Civil (Date)

def defaultColumns : List String := [
  "ash_wednesday", "easter", "ascension_thursday", "pentecost", "corpus_christi", "advent_1"]

/-- Names between commas, without the blanks around them and without the empty ones. -/
def columnsOf (text : String) : List String :=
  ((Text.pieces ',' text).map Text.strip).filter fun name => !name.isEmpty

inductive Style where
  | monthDay
  | iso
deriving DecidableEq, Repr

namespace Style

def write : Style → Date → String
  | monthDay, date => date.monthDay
  | iso, date => date.iso

def width : Style → Nat
  | monthDay => 5
  | iso => 10

def ofName? : String → Option Style
  | "mmdd" => some monthDay
  | "iso" => some iso
  | _ => none

end Style

abbrev yearWidth : Nat := 5

def columnWidth (style : Style) (name : String) : Nat := max style.width name.length

def header (style : Style) (columns : List String) : String :=
  Text.joinWith "  " (Text.padRight yearWidth "Year" ::
    columns.map fun name => Text.padRight (columnWidth style name) name)

def underline (header : String) : String := String.ofList (List.replicate header.length '-')

def row (style : Style) (columns : List String) (year : Int) (table : AnchorTable) :
    Except Failure String := do
  let cells ← columns.mapM fun (name : String) => do
    return Text.padRight (columnWidth style name) (style.write (← table.get name))
  return Text.joinWith "  " (Text.padRight yearWidth (Text.intText year) :: cells)

end FeastCalendar.YearTable
