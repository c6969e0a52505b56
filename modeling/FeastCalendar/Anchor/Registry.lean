import FeastCalendar.Anchor.Table

/-!
A registry of anchor definitions that callers can look into and add to.
-/

namespace FeastCalendar

structure Registry where
  definitions : Definitions
deriving DecidableEq

namespace Registry

def names (registry : Registry) : List Text := Text.sort (Keyed.keys registry.definitions)

def get (registry : Registry) (name : Text) : Except Failure Anchor :=
  match Keyed.find? registry.definitions name with
  | some anchor => .ok anchor
  | none => .error (.lookup (.noDefinition name registry.names))

/-- A name that is taken is replaced only on request, and keeps its place then. -/
def register (registry : Registry) (name : Text) (anchor : Anchor) (overwrite : Bool) :
    Except Failure Registry :=
  if !overwrite && Keyed.contains registry.definitions name then
    .error (.lookup (.alreadyDefined name))
  else .ok ⟨Keyed.put registry.definitions name anchor⟩

def table (registry : Registry) (year : Json) : Except Failure AnchorTable :=
  AnchorTable.build year registry.definitions

end Registry

end FeastCalendar
