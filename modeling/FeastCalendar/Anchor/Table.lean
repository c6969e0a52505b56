import FeastCalendar.Anchor.Order

/-!
The dates of all anchors in one year. A table answers for a missing anchor with its own year;
plain dates know no year.
-/

namespace FeastCalendar

open Civil (Date)

structure AnchorTable where
  year : Json
  /-- In the order in which the anchors were placed. -/
  dates : Keyed Text Date
deriving DecidableEq

namespace AnchorTable

def find? (table : AnchorTable) (key : Text) : Option Date := Keyed.find? table.dates key

def get (table : AnchorTable) (key : Text) : Except Failure Date :=
  match table.find? key with
  | some date => .ok date
  | none =>
    .error (.fault { cause := .unknownAnchor key, year := Fault.yearGiven table.year })

def describe (table : AnchorTable) : String :=
  "AnchorTable(year=" ++ table.year.display.shown ++ ", anchors=" ++ toString table.dates.length ++ ")"

def chronological (table : AnchorTable) : Keyed Text Date :=
  table.dates.mergeSort fun left right =>
    decide (left.2 < right.2) || (left.2 = right.2 && !decide (right.1 < left.1))

def disorderFailure (year : Int) : Definitions.Disorder → Failure
  | .undefined key => .fault { cause := .unknownAnchor key, year := some (.int year) }
  | .cycle path => .fault { cause := .invalid (.cycle path), year := some (.int year) }
  | .tooDeep => .tooDeep

def placingOrder (room : Nat) (year : Int) (definitions : Definitions) : Except Failure (List Text) :=
  (definitions.orderWithin room).mapError (disorderFailure year)

def placeNext (definitions : Definitions) (year : Int) (easter : Date) (placed : Keyed Text Date)
    (key : Text) : Except Failure (Keyed Text Date) :=
  match Keyed.find? definitions key with
  | some anchor => return Keyed.put placed key (← anchor.resolve year easter placed)
  | none => throw (.fault { cause := .unknownAnchor key, year := some (.int year) })

def place (definitions : Definitions) (year : Int) (easter : Date) (keys : List Text) :
    Except Failure (Keyed Text Date) :=
  keys.foldlM (placeNext definitions year easter) []

/-- The table of a year: Easter first, then each anchor after those it depends on. -/
def buildWithin (room : Nat) (year : Json) (definitions : Definitions) :
    Except Failure AnchorTable := do
  let year ← Easter.yearOf year
  let easter ← Easter.sunday year
  let keys ← placingOrder room year definitions
  return ⟨.int year, ← place definitions year easter keys⟩

def build (year : Json) (definitions : Definitions) : Except Failure AnchorTable :=
  buildWithin Definitions.chainLimit year definitions

end AnchorTable

inductive Anchors where
  | table (table : AnchorTable)
  | plain (dates : Keyed Text Date)

namespace Anchors

instance : Coe AnchorTable Anchors := ⟨table⟩

def dates : Anchors → Keyed Text Date
  | .table own => own.dates
  | .plain dates => dates

def find? (anchors : Anchors) (key : Text) : Option Date := Keyed.find? anchors.dates key

def get : Anchors → Text → Except Failure Date
  | .table own, key => own.get key
  | .plain dates, key =>
    match Keyed.find? dates key with
    | some date => .ok date
    | none => .error (.lookup (.noDate key))

/-- A rule that names a missing anchor is at fault, whatever the dates come from. -/
def getForRule (anchors : Anchors) (key : Text) (year : Json) : Except Failure Date :=
  match anchors with
  | .table own => own.get key
  | .plain dates =>
    match Keyed.find? dates key with
    | some date => .ok date
    | none => .error (.fault { cause := .unknownAnchor key, year := Fault.yearGiven year })

end Anchors

end FeastCalendar
