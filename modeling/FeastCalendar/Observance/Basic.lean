import FeastCalendar.Anchor.Table

/-!
Observances and the seasons they fall in.
-/

namespace FeastCalendar

open Civil (Date)

inductive Rank where
  | weekday
  | optionalMemorial
  | memorial
  | feast
  | sunday
  | solemnity
  | triduum
deriving DecidableEq, Repr

namespace Rank

def level : Rank → Nat
  | weekday => 0
  | optionalMemorial => 1
  | memorial => 2
  | feast => 3
  | sunday => 4
  | solemnity => 5
  | triduum => 6

def all : List Rank := [weekday, optionalMemorial, memorial, feast, sunday, solemnity, triduum]

def ofLevel? (level : Nat) : Option Rank := all[level]?

def label : Rank → String
  | weekday => "Weekday"
  | optionalMemorial => "Optional Memorial"
  | memorial => "Memorial"
  | feast => "Feast"
  | sunday => "Sunday"
  | solemnity => "Solemnity"
  | triduum => "Triduum"

end Rank

inductive Season where
  | advent
  | christmas
  | lent
  | easter
  | ordinaryTime
deriving DecidableEq, Repr

namespace Season

def all : List Season := [advent, christmas, lent, easter, ordinaryTime]

def name : Season → String
  | advent => "Advent"
  | christmas => "Christmas"
  | lent => "Lent"
  | easter => "Easter"
  | ordinaryTime => "Ordinary Time"

def ofName? (name : String) : Option Season := all.find? (·.name = name)

def color : Season → String
  | advent => "violet"
  | christmas => "white"
  | lent => "violet"
  | easter => "white"
  | ordinaryTime => "green"

/-- The season of a date, by the anchors of its year. Christmas runs on to the Baptism of the
Lord. An anchor is looked up only when the date is not decided before. -/
def ofDate (date : Date) (anchors : Anchors) : Except Failure Season := do
  if (← anchors.get "christmas") ≤ date then return christmas
  if (← anchors.get "advent_1") ≤ date then return advent
  if (← anchors.get "pentecost") < date then return ordinaryTime
  if (← anchors.get "easter") ≤ date then return easter
  if (← anchors.get "ash_wednesday") ≤ date then return lent
  if date ≤ (← anchors.get "baptism_of_the_lord") then return christmas
  return ordinaryTime

end Season

structure Observance where
  id : String
  title : String
  rank : Rank
  color : Option String
  season : Option Season
  /-- Whether it only says that a season begins. -/
  seasonMarker : Bool
deriving DecidableEq

namespace Observance

/-- By rank, the highest first, then by title. -/
def noLater (left right : Observance) : Bool :=
  decide (right.rank.level < left.rank.level) ||
    (left.rank.level = right.rank.level && !decide (right.title < left.title))

end Observance

end FeastCalendar
