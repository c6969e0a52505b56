import FeastCalendar.Almanac

/-!
How many days after the equinox, taken as 21 March, an anchor falls over a range of years, and the
series of such numbers that are drawn.
-/

namespace FeastCalendar.EquinoxSeries

open Civil (Date)

def daysAfterEquinox (date : Date) : Int := date.number - Civil.dayNumber date.year 3 21

def point (table : AnchorTable) (anchor : Text) (year : Int) : Except Failure (Int × Int) := do
  return (year, daysAfterEquinox (← table.get anchor))

def years (first last : Int) : List Int :=
  (List.range (last - first + 1).toNat).map fun (offset : Nat) => first + offset

def build (almanac : Almanac) (anchor : Text) (first last : Int) :
    Except Failure (List (Int × Int)) :=
  (years first last).mapM fun year => do point (← almanac.table (.int year)) anchor year

/-- How often each number of days occurs, in ascending order of the days. -/
def histogram (values : List Int) : List (Int × Nat) :=
  (values.eraseDups.mergeSort fun left right => decide (left ≤ right)).map fun value =>
    (value, values.count value)

def extent? (values : List Int) : Option (Int × Int) := do
  let counts := (histogram values).map Prod.fst
  return (← counts.head?, ← counts.getLast?)

structure Style where
  label : String
  color : String
  marker : String
  size : Nat

def styles (pentecost : Bool) : Keyed Text Style :=
  ("easter", ⟨"Easter", "tab:blue", "o", 14⟩) ::
    if pentecost then [("pentecost", ⟨"Pentecost", "tab:red", "_", 18⟩)] else []

structure Series where
  style : Style
  points : List (Int × Int)

end FeastCalendar.EquinoxSeries
