import FeastCalendar.Rule.Wire

/-!
Novenas: days of prayer that end on a feast. A definition says where the feast falls and how long
the prayer lasts; an instance is its window in one year.
-/

namespace FeastCalendar

open Civil (Date)

/-- Descriptive fields hold whatever the index they were read from holds. -/
structure Novena where
  id : Key
  title : Json
  feast : RuleSlot
  /-- When the prayer is said to start; it confirms the computed start and never moves it. -/
  start : Option RuleSlot := none
  /-- From start to feast, both included; null stands for nine days. -/
  duration : Json := .null
  category : Json := .str "Devotion"
  tags : List Json := []
  description : Json := .null
  patronage : List Json := []
  image : Json := .null
  notes : Json := .null
  source : Json := .null
  /-- Members of an index entry that have no meaning here. -/
  extra : Keyed Text Json := []
deriving DecidableEq

namespace Novena

def effectiveDuration (novena : Novena) : Json :=
  match novena.duration with
  | .null => .int 9
  | given => given

end Novena

structure NovenaInstance where
  id : Text
  title : Json
  start : Date
  feast : Date
  duration : Int
  category : Json := .str "Devotion"
  tags : List Json := []
  source : Json := .null
  hint : Option Date := none
  hintAccepted : Bool := false
deriving DecidableEq

namespace NovenaInstance

def contains (window : NovenaInstance) (date : Date) : Bool :=
  decide (window.start ≤ date) && decide (date ≤ window.feast)

def dayNumber? (window : NovenaInstance) (date : Date) : Option Int :=
  if window.contains date then some (window.start.daysTo date + 1) else none

def hintDiscarded (window : NovenaInstance) : Bool := window.hint.isSome && !window.hintAccepted

def toJson (window : NovenaInstance) : Keyed Text Json := [
  ("id", .str window.id),
  ("title", window.title),
  ("category", window.category),
  ("tags", .arr window.tags),
  ("startDate", .str window.start.iso),
  ("feastDate", .str window.feast.iso),
  ("durationDays", .int window.duration),
  ("hintAccepted", .bool window.hintAccepted)]

end NovenaInstance

end FeastCalendar
