import Mathlib.Data.List.Chain
import Mathlib.Data.List.Nodup
import FeastCalendar.Anchor.Order

/-!
Dependencies between anchors, as a relation apart from any walk over them, and the lists of keys in
which each key comes after its bases. Where such a list holds all keys, no key depends on itself and
every base is defined.
-/

namespace FeastCalendar.Definitions
open Relation (TransGen)

variable {definitions : Definitions}

def Depends (definitions : Definitions) (key base : Text) : Prop :=
  ∃ anchor, Keyed.find? definitions key = some anchor ∧ base ∈ anchor.dependsOn

def Closed (definitions : Definitions) : Prop :=
  ∀ key base, Depends definitions key base → base ∈ Keyed.keys definitions

def Acyclic (definitions : Definitions) : Prop :=
  ∀ key, ¬TransGen (Depends definitions) key key

/-- A list that grows at its end by one defined key at a time, whose bases it holds already. -/
inductive Ordered (definitions : Definitions) : List Text → Prop where
  | nil : Ordered definitions []
  | snoc {order : List Text} {key : Text} {anchor : Anchor} (earlier : Ordered definitions order)
      (fresh : key ∉ order) (defined : Keyed.find? definitions key = some anchor)
      (bases : ∀ base ∈ anchor.dependsOn, base ∈ order) : Ordered definitions (order ++ [key])

theorem Depends.mem_keys {key base : Text} (depends : Depends definitions key base) :
    key ∈ Keyed.keys definitions := by
  obtain ⟨anchor, defined, -⟩ := depends
  exact Keyed.mem_keys_of_find? defined

theorem depends_iff {key base : Text} {anchor : Anchor}
    (defined : Keyed.find? definitions key = some anchor) :
    Depends definitions key base ↔ base ∈ anchor.dependsOn := by
  constructor
  · rintro ⟨other, found, member⟩
    rw [defined] at found
    exact (Option.some.inj found) ▸ member
  · exact fun member => ⟨anchor, defined, member⟩

theorem not_acyclic_of_walk {path : List Text} {key : Text}
    (walk : (path ++ [key]).IsChain (Depends definitions)) (again : key ∈ path) :
    ¬Acyclic definitions := by
  intro acyclic
  have steps := walk.imp (S := TransGen (Depends definitions)) fun _ _ => TransGen.single
  have pairs := List.isChain_iff_pairwise.mp steps
  exact acyclic key ((List.pairwise_append.mp pairs).2.2 key again key (by simp))

namespace Ordered

theorem nodup {order : List Text} (ordered : Ordered definitions order) : order.Nodup := by
  induction ordered with
  | nil => simp
  | snoc _ fresh _ _ ih =>
    rw [← List.concat_eq_append]
    exact ih.concat fresh

theorem mem_keys {order : List Text} {key : Text} (ordered : Ordered definitions order)
    (member : key ∈ order) : key ∈ Keyed.keys definitions := by
  induction ordered with
  | nil => cases member
  | snoc _ _ defined _ ih =>
    rcases List.mem_append.mp member with before | last
    · exact ih before
    · rw [List.mem_singleton.mp last]
      exact Keyed.mem_keys_of_find? defined

theorem front {before after : List Text} (ordered : Ordered definitions (before ++ after)) :
    Ordered definitions before := by
  induction after using List.reverseRecOn with
  | nil => simpa using ordered
  | append_singleton rest last ih =>
    rw [← List.append_assoc] at ordered
    generalize whole : before ++ rest ++ [last] = order at ordered
    cases ordered with
    | nil => simp at whole
    | snoc earlier _ _ _ =>
      rw [(List.append_inj' whole rfl).1] at ih
      exact ih earlier

theorem base_before {before after : List Text} {key base : Text}
    (ordered : Ordered definitions (before ++ key :: after))
    (depends : Depends definitions key base) : base ∈ before := by
  rw [List.append_cons] at ordered
  have upTo := ordered.front
  generalize whole : before ++ [key] = order at upTo
  cases upTo with
  | nil => simp at whole
  | snoc _ _ defined bases =>
    obtain ⟨rfl, last⟩ := List.append_inj' whole rfl
    cases last
    exact bases base ((depends_iff defined).mp depends)

theorem base_mem {order : List Text} {key base : Text} (ordered : Ordered definitions order)
    (member : key ∈ order) (depends : Depends definitions key base) : base ∈ order := by
  obtain ⟨before, after, rfl⟩ := List.append_of_mem member
  exact List.mem_append_left _ (base_before ordered depends)

/-- What holds of a key whenever it holds of its bases holds of all keys of such a list. -/
theorem dependency_induction {property : Text → Prop} {order : List Text}
    (ordered : Ordered definitions order)
    (step : ∀ key ∈ order, (∀ base, Depends definitions key base → property base) → property key) :
    ∀ key ∈ order, property key := by
  induction ordered with
  | nil => simp
  | @snoc earlier last anchor ordered fresh defined bases ih =>
    have before := ih fun key member => step key (List.mem_append_left _ member)
    intro key member
    rcases List.mem_append.mp member with early | late
    · exact before key early
    · rw [List.mem_singleton.mp late]
      refine step last (by simp) fun base depends => ?_
      exact before base (bases base ((depends_iff defined).mp depends))

theorem irreflexive {order : List Text} (ordered : Ordered definitions order) :
    ∀ key ∈ order, ¬TransGen (Depends definitions) key key := by
  refine ordered.dependency_induction fun key _ noCircle circle => ?_
  obtain ⟨base, depends, reached⟩ := TransGen.head'_iff.mp circle
  exact noCircle base depends (TransGen.tail' reached depends)

theorem closed {order : List Text} (ordered : Ordered definitions order)
    (all : ∀ key ∈ Keyed.keys definitions, key ∈ order) : Closed definitions :=
  fun key _ depends => ordered.mem_keys (ordered.base_mem (all key depends.mem_keys) depends)

theorem acyclic {order : List Text} (ordered : Ordered definitions order)
    (all : ∀ key ∈ Keyed.keys definitions, key ∈ order) : Acyclic definitions := by
  intro key circle
  obtain ⟨base, depends, -⟩ := TransGen.head'_iff.mp circle
  exact ordered.irreflexive key (all key depends.mem_keys) circle

end Ordered

end FeastCalendar.Definitions
