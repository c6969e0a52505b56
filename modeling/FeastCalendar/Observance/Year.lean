import FeastCalendar.Anchor.Builtin
import FeastCalendar.Observance.Catalogue
import FeastCalendar.Rule.Resolve

/-!
The observances of one year. They are emitted one by one, season markers first, then the Sundays of
the seasons, the Sundays in Ordinary Time and the celebrations of a catalogue; the year's table
gathers them by date.
-/

namespace FeastCalendar

open Civil (Date)

def ordinalWords : List String := [
  "First", "Second", "Third", "Fourth", "Fifth", "Sixth", "Seventh", "Eighth", "Ninth", "Tenth",
  "Eleventh", "Twelfth", "Thirteenth", "Fourteenth", "Fifteenth", "Sixteenth", "Seventeenth",
  "Eighteenth", "Nineteenth", "Twentieth", "Twenty-first", "Twenty-second", "Twenty-third",
  "Twenty-fourth", "Twenty-fifth", "Twenty-sixth", "Twenty-seventh", "Twenty-eighth",
  "Twenty-ninth", "Thirtieth", "Thirty-first", "Thirty-second", "Thirty-third", "Thirty-fourth"]

def ordinal (n : Int) : String :=
  if 1 ≤ n ∧ n ≤ ordinalWords.length then ordinalWords.getD (n - 1).toNat ""
  else Text.intText n ++ "th"

abbrev Emission := Date × Observance

namespace Emission

/-- An observance on a date, in the season of the date and in its colour unless it has one. -/
def make (anchors : Anchors) (date : Date) (id title : String) (rank : Rank)
    (color : Option String) (seasonMarker : Bool) : Except Failure Emission := do
  let season ← Season.ofDate date anchors
  return (date, ⟨id, title, rank, color <|> some season.color, some season, seasonMarker⟩)

/-- The days on which a season begins; Ordinary Time begins twice. -/
def seasonMarkers (anchors : Anchors) : Except Failure (List Emission) := do
  let advent ← anchors.get "advent_1"
  let christmas ← anchors.get "christmas"
  let winter ← inRange ((← anchors.get "baptism_of_the_lord").add? 1)
  let lent ← anchors.get "ash_wednesday"
  let easter ← anchors.get "easter"
  let summer ← inRange ((← anchors.get "pentecost").add? 1)
  let markers := [
    (advent, "season_advent", "Season of Advent begins"),
    (christmas, "season_christmas", "Christmas Season begins"),
    (winter, "season_ordinary_time_1", "Ordinary Time resumes"),
    (lent, "season_lent", "Season of Lent begins"),
    (easter, "season_easter", "Easter Season begins"),
    (summer, "season_ordinary_time_2", "Ordinary Time resumes")]
  markers.mapM fun (date, id, title) => make anchors date id title .weekday none true

def seasonalSunday (anchors : Anchors) (start : Date) (weeks n : Int) (id season color : String) :
    Except Failure Emission := do
  let date ← inRange (start.add? (7 * weeks))
  make anchors date (id ++ "_" ++ Text.intText n) (ordinal n ++ " Sunday of " ++ season) .sunday
    (some color) false

def seasonalSundays (anchors : Anchors) : Except Failure (List Emission) := do
  let advent ← [1, 2, 3, 4].mapM fun (n : Int) => do
    seasonalSunday anchors (← anchors.get "advent_1") (n - 1) n "advent_sunday" "Advent"
      (if n = 3 then "rose" else "violet")
  let firstOfLent ← inRange ((← anchors.get "ash_wednesday").nextWeekday? 0 false)
  let lent ← [1, 2, 3, 4, 5].mapM fun (n : Int) =>
    seasonalSunday anchors firstOfLent (n - 1) n "lent_sunday" "Lent"
      (if n = 4 then "rose" else "violet")
  let easter ← [2, 3, 4, 5, 6, 7].mapM fun (n : Int) => do
    seasonalSunday anchors (← anchors.get "easter") (n - 1) n "easter_sunday" "Easter" "white"
  return advent ++ lent ++ easter

abbrev lastOrdinarySunday : Nat := 34

def sundaysBetween (anchors : Anchors) (after before : String) (limit : Nat) :
    Except Failure (List Date) := do
  let start ← inRange ((← anchors.get after).add? 1)
  match start.firstSundaysUntil? (← anchors.get before) limit with
  | some dates => return dates
  | none => throw (.date .beyondRange)

/-- The numbered Sundays in Ordinary Time: those before Lent and, counted on, those after Easter.
The Baptism of the Lord closes the first week, so the count starts from two. Of each span one
Sunday more is looked for than the numbers reach. -/
def ordinarySundays (anchors : Anchors) : Except Failure (List (Date × Int)) := do
  let numbers := lastOrdinarySunday - 1
  let winter ← sundaysBetween anchors "baptism_of_the_lord" "ash_wednesday" (numbers + 1)
  let summer ← sundaysBetween anchors "pentecost" "advent_1" (numbers - winter.length + 1)
  return ((winter ++ summer).take numbers).zipIdx.map fun (date, index) =>
    (date, (index : Int) + 2)

def ordinaryTime (anchors : Anchors) : Except Failure (List Emission) := do
  (← ordinarySundays anchors).mapM fun (date, n) =>
    make anchors date ("ordinary_sunday_" ++ Text.intText n)
      (ordinal n ++ " Sunday in Ordinary Time") .sunday (some "green") false

def celebrations (year : Json) (anchors : Anchors) (catalogue : List Celebration) :
    Except Failure (List Emission) :=
  catalogue.mapM fun celebration => do
    let date ← celebration.rule.resolve year anchors none
    make anchors date celebration.id celebration.title celebration.rank celebration.color false

def ofYear (year : Json) (anchors : Anchors) (catalogue : List Celebration) :
    Except Failure (List Emission) := do
  let markers ← seasonMarkers anchors
  let seasonal ← seasonalSundays anchors
  let ordinary ← ordinaryTime anchors
  let named ← celebrations year anchors catalogue
  return markers ++ seasonal ++ ordinary ++ named

end Emission

abbrev ObservanceTable := List (Date × List Observance)

namespace ObservanceTable

/-- Of observances with one id the first stands. -/
def firstOfEachId : List Observance → List Observance
  | [] => []
  | observance :: rest =>
    observance :: (firstOfEachId rest).filter fun other => other.id ≠ observance.id

def arrange (observances : List Observance) : List Observance :=
  (firstOfEachId observances).mergeSort Observance.noLater

def dates (emissions : List Emission) : List Date :=
  (emissions.map Prod.fst).eraseDups.mergeSort fun left right => decide (left ≤ right)

def ofEmissions (emissions : List Emission) : ObservanceTable :=
  (dates emissions).map fun date =>
    (date, arrange ((emissions.filter fun emission => emission.1 = date).map Prod.snd))

def build (year : Json) (anchors : Anchors) (catalogue : List Celebration) :
    Except Failure ObservanceTable := do
  return ofEmissions (← Emission.ofYear year anchors catalogue)

def on (table : ObservanceTable) (date : Date) : List Observance :=
  (table.lookup date).getD []

/-- The part of a table whose dates, as text, start so. -/
def startingWith (table : ObservanceTable) (start : String) : ObservanceTable :=
  table.filter fun entry => start.toList.isPrefixOf entry.1.iso.toList

end ObservanceTable

end FeastCalendar
