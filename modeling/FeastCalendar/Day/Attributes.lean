import FeastCalendar.Day.Basic

/-!
Attributes: named sets of values computed for a day. The lectionary reckons by the built-in anchors,
as they are when it is asked.
-/

namespace FeastCalendar

inductive Attribute where
  | weekday
  /-- The liturgical year, named by the year in which its Advent starts, and its readings. -/
  | lectionary
  | color
  | constant (values : Keyed Text Json)
deriving DecidableEq

namespace Attribute

def weekdayValues (day : Day) : Keyed Text Json := [
  ("weekday", .int day.date.weekday),
  ("weekday_name", .str day.date.weekdayName)]

def liturgicalYear (date advent : Civil.Date) : Int :=
  if advent ≤ date then date.year else date.year - 1

def sundayCycle (liturgicalYear : Int) : String :=
  if liturgicalYear % 3 = 0 then "A" else if liturgicalYear % 3 = 1 then "B" else "C"

/-- The first cycle is read in odd civil years, told by the January of the liturgical year. -/
def weekdayCycle (liturgicalYear : Int) : String :=
  if (liturgicalYear + 1) % 2 = 1 then "I" else "II"

def lectionaryValues (builtin : Definitions) (day : Day) : Except Failure (Keyed Text Json) := do
  let table ← AnchorTable.build (.int day.date.year) builtin
  let year := liturgicalYear day.date (← table.get "advent_1")
  return [
    ("liturgical_year", .int year),
    ("sunday_cycle", .str (sundayCycle year)),
    ("weekday_cycle", .str (weekdayCycle year))]

/-- The colour of the first observance that has one and is not a season marker, else the season's. -/
def colorOf (day : Day) : Option String :=
  match day.observances.find? fun observance => observance.color.isSome && !observance.seasonMarker with
  | some observance => observance.color
  | none => day.season.map Season.color

def textOrNull : Option String → Json
  | some text => .str text
  | none => .null

def values (kind : Attribute) (builtin : Definitions) (day : Day) :
    Except Failure (Keyed Text Json) :=
  match kind with
  | weekday => .ok (weekdayValues day)
  | lectionary => lectionaryValues builtin day
  | color => .ok [("color", textOrNull (colorOf day))]
  | constant values => .ok values

end Attribute

abbrev Attributes := Keyed Text Attribute

namespace Attributes

def builtin : Attributes :=
  [("weekday", .weekday), ("lectionary", .lectionary), ("color", .color)]

def names (attributes : Attributes) : List Text := Text.sort (Keyed.keys attributes)

/-- The values of the named attributes together; a value given again replaces the first. -/
def compute (attributes : Attributes) (builtin : Definitions) (day : Day) (wanted : List Text) :
    Except Failure (Keyed Text Json) :=
  wanted.foldlM (fun known name => do
    match Keyed.find? attributes name with
    | some kind => return Keyed.putAll known (← kind.values builtin day)
    | none => throw (.lookup (.noAttribute name attributes.names))) []

end Attributes

end FeastCalendar
