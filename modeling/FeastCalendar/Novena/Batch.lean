import FeastCalendar.Anchor.Builtin
import FeastCalendar.Json.Order
import FeastCalendar.Novena.Window

/-!
Many novenas in one year. An entry at fault is recorded and the others still stand; the instances
come out by start, then by title.
-/

namespace FeastCalendar

open Civil (Date)

structure NovenaFailure where
  id : Key
  fault : Fault
deriving DecidableEq

structure NovenaBatch where
  year : Json
  instances : List NovenaInstance
  failures : List NovenaFailure
deriving DecidableEq

namespace NovenaInstance

/-- Instances of one start can be ordered only if their titles can. -/
def comparable (left right : NovenaInstance) : Bool :=
  left.start ≠ right.start || (left.title.compare? right.title).isSome

def startsNoLater (left right : NovenaInstance) : Bool :=
  decide (left.start < right.start) ||
    (left.start = right.start && left.title.compare? right.title != some .gt)

/-- Stably by start and title, if the titles that must be compared can be. -/
def sort (instances : List NovenaInstance) : Except Failure (List NovenaInstance) :=
  if instances.all fun left => instances.all left.comparable then
    .ok (instances.mergeSort startsNoLater)
  else .error (.wrongType .other)

def comparableByFeast (left right : NovenaInstance) : Bool :=
  left.feast ≠ right.feast || (left.title.compare? right.title).isSome

def endsNoLater (left right : NovenaInstance) : Bool :=
  decide (left.feast < right.feast) ||
    (left.feast = right.feast && left.title.compare? right.title != some .gt)

end NovenaInstance

namespace NovenaBatch

def ok (batch : NovenaBatch) : Bool := batch.failures.isEmpty

def discarded (batch : NovenaBatch) : List NovenaInstance :=
  batch.instances.filter (·.hintDiscarded)

/-- The instances and the entries at fault, both in the order of the definitions. Any other failure
ends the batch. -/
def resolveAll (year : Json) (anchors : Anchors) :
    List Novena → Except Failure (List NovenaInstance × List NovenaFailure)
  | [] => .ok ([], [])
  | novena :: novenas =>
    match novena.resolve year anchors with
    | .ok window => do
      let (instances, failures) ← resolveAll year anchors novenas
      return (window :: instances, failures)
    | .error (.fault fault) => do
      let (instances, failures) ← resolveAll year anchors novenas
      return (instances, ⟨novena.id, fault⟩ :: failures)
    | .error failure => .error failure

def resolve (novenas : List Novena) (year : Json) (anchors : Anchors) :
    Except Failure NovenaBatch := do
  let (instances, failures) ← resolveAll year anchors novenas
  return ⟨year, ← NovenaInstance.sort instances, failures⟩

end NovenaBatch

/-- Novenas under the dates of their starts and of their feasts, each date at its first mention. -/
structure NovenaCalendar where
  starts : List (Date × List NovenaInstance)
  feasts : List (Date × List NovenaInstance)
deriving DecidableEq

namespace NovenaCalendar

def underDates (dateOf : NovenaInstance → Date) (instances : List NovenaInstance) :
    List (Date × List NovenaInstance) :=
  (instances.map dateOf).eraseDups.map fun date =>
    (date, instances.filter fun window => dateOf window = date)

def ofInstances (instances : List NovenaInstance) : NovenaCalendar :=
  ⟨underDates (·.start) instances, underDates (·.feast) instances⟩

/-- The novenas under way on a date with the day each is at, by feast, then by title. -/
def active (instances : List NovenaInstance) (date : Date) :
    Except Failure (List (NovenaInstance × Int)) :=
  let running := instances.filterMap fun window => (window.dayNumber? date).map (window, ·)
  if running.all fun left => running.all fun right => left.1.comparableByFeast right.1 then
    .ok (running.mergeSort fun left right => left.1.endsNoLater right.1)
  else .error (.wrongType .other)

end NovenaCalendar

end FeastCalendar
