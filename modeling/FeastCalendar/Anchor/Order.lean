import FeastCalendar.Anchor.Definition

/-!
The order in which anchors are placed: each after the anchors it depends on, depth first in the
order of the definitions. A name without a definition, a circle of dependencies and a chain of them
that is too long are refused.
-/

namespace FeastCalendar

abbrev Definitions := Keyed Text Anchor

namespace Definitions

inductive Disorder where
  | undefined (key : Text)
  | cycle (path : List Text)
  | tooDeep
deriving DecidableEq

/-- Adds a key to the order, after what it depends on. `path` leads from a defined key down to
this one; it may grow by `room` keys, so with more room than there are definitions it never grows
too long. -/
def visit (definitions : Definitions) : Nat → List Text → List Text → Text →
    Except Disorder (List Text)
  | 0, _, _, _ => .error .tooDeep
  | room + 1, path, order, key =>
    if key ∈ order then .ok order
    else if key ∈ path then .error (.cycle (path ++ [key]))
    else match Keyed.find? definitions key with
      | none => .error (.undefined key)
      | some anchor => do
        let order ← anchor.dependsOn.foldlM (visit definitions room (path ++ [key])) order
        return order ++ [key]

/-- The keys in the order of their placing, where chains have at most `room` keys. -/
def orderWithin (room : Nat) (definitions : Definitions) : Except Disorder (List Text) :=
  (Keyed.keys definitions).foldlM (visit definitions room []) []

abbrev chainLimit : Nat := 990

end Definitions

end FeastCalendar
