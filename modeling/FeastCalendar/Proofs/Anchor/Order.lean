import Mathlib.Data.List.Perm.Subperm
import FeastCalendar.Attempt
import FeastCalendar.Proofs.Anchor.Dependency

/-!
The walk that puts anchors in order. It answers with every key once, after its bases, if all bases
are defined and none depends on itself, and otherwise names an undefined key or walks a circle.
-/

namespace FeastCalendar.Definitions

variable {definitions : Definitions}

/-- What a visit leaves: the old order and then keys that are not on the path. -/
def Grown (definitions : Definitions) (path order result : List Text) : Prop :=
  Ordered definitions result ∧ ∃ added, result = order ++ added ∧ ∀ key ∈ added, key ∉ path

theorem Grown.mem {path order result : List Text} {key : Text}
    (grown : Grown definitions path order result) (member : key ∈ order) : key ∈ result := by
  obtain ⟨-, added, rfl, -⟩ := grown
  exact List.mem_append_left _ member

theorem Grown.trans {path order middle result : List Text}
    (first : Grown definitions path order middle) (second : Grown definitions path middle result) :
    Grown definitions path order result := by
  obtain ⟨-, added, rfl, off⟩ := first
  obtain ⟨ordered, more, rfl, moreOff⟩ := second
  refine ⟨ordered, added ++ more, by simp, ?_⟩
  intro key member
  rcases List.mem_append.mp member with before | after
  · exact off key before
  · exact moreOff key after

theorem visitAll_ok {room : Nat} {path : List Text}
    (each : ∀ {order key result}, visit definitions room path order key = .ok result →
      Ordered definitions order → Grown definitions path order result ∧ key ∈ result)
    {keys order result : List Text}
    (visited : keys.foldlM (visit definitions room path) order = .ok result)
    (ordered : Ordered definitions order) :
    Grown definitions path order result ∧ ∀ key ∈ keys, key ∈ result := by
  induction keys generalizing order with
  | nil =>
    rw [List.foldlM_nil, Attempt.pure_eq_ok] at visited
    subst visited
    exact ⟨⟨ordered, [], by simp, by simp⟩, by simp⟩
  | cons key rest ih =>
    rw [List.foldlM_cons, Attempt.bind_eq_ok] at visited
    obtain ⟨middle, first, others⟩ := visited
    obtain ⟨grown, here⟩ := each first ordered
    obtain ⟨further, there⟩ := ih others grown.1
    refine ⟨grown.trans further, ?_⟩
    intro other member
    rcases List.mem_cons.mp member with rfl | later
    · exact further.mem here
    · exact there other later

theorem visit_ok {room : Nat} {path order result : List Text} {key : Text}
    (visited : visit definitions room path order key = .ok result)
    (ordered : Ordered definitions order) :
    Grown definitions path order result ∧ key ∈ result := by
  induction room generalizing path order key result with
  | zero => cases visited
  | succ room ih =>
    rw [visit] at visited
    split at visited
    next done =>
      cases visited
      exact ⟨⟨ordered, [], by simp, by simp⟩, done⟩
    next pending =>
      split at visited
      next => cases visited
      next off =>
        split at visited
        next => cases visited
        next anchor defined =>
          obtain ⟨middle, bases, added⟩ := Attempt.bind_eq_ok.mp visited
          cases Attempt.pure_eq_ok.mp added
          obtain ⟨⟨reordered, more, rfl, apart⟩, placed⟩ := visitAll_ok ih bases ordered
          have fresh : key ∉ order ++ more := by
            intro member
            rcases List.mem_append.mp member with before | after
            · exact pending before
            · exact apart key after (by simp)
          refine ⟨⟨.snoc reordered fresh defined placed, more ++ [key], by simp, ?_⟩, by simp⟩
          intro other member
          rcases List.mem_append.mp member with before | last
          · exact fun on => apart other before (List.mem_append_left _ on)
          · rw [List.mem_singleton.mp last]
            exact off

/-- The path that leads to a key: distinct defined keys, each depending on the next. The key itself
is defined or some key depends on it. -/
structure Leads (definitions : Definitions) (path : List Text) (key : Text) : Prop where
  nodup : path.Nodup
  defined : ∀ other ∈ path, other ∈ Keyed.keys definitions
  walk : (path ++ [key]).IsChain (Depends definitions)
  asked : key ∈ Keyed.keys definitions ∨ ∃ other, Depends definitions other key

theorem Leads.length_le {path : List Text} {key : Text} (leads : Leads definitions path key) :
    path.length ≤ definitions.length := by
  have subset : path ⊆ Keyed.keys definitions := leads.defined
  have short := (leads.nodup.subperm subset).length_le
  simpa [Keyed.keys] using short

theorem Leads.extend {path : List Text} {key base : Text} {anchor : Anchor}
    (leads : Leads definitions path key) (off : key ∉ path)
    (defined : Keyed.find? definitions key = some anchor) (member : base ∈ anchor.dependsOn) :
    Leads definitions (path ++ [key]) base := by
  have depends : Depends definitions key base := ⟨anchor, defined, member⟩
  refine ⟨?_, ?_, ?_, Or.inr ⟨key, depends⟩⟩
  · rw [← List.concat_eq_append]
    exact leads.nodup.concat off
  · intro other on
    rcases List.mem_append.mp on with before | last
    · exact leads.defined other before
    · rw [List.mem_singleton.mp last]
      exact Keyed.mem_keys_of_find? defined
  · rw [List.append_assoc]
    exact List.isChain_append_cons_cons.mpr ⟨leads.walk, depends, by simp⟩

/-- What a refusal tells: an undefined key that is depended on, a walk that comes back to a key on
it, or that the room is no more than there are definitions. -/
def Explained (definitions : Definitions) (room : Nat) : Disorder → Prop
  | .undefined key => key ∉ Keyed.keys definitions ∧ ∃ other, Depends definitions other key
  | .cycle walk =>
    ∃ path key, walk = path ++ [key] ∧ walk.IsChain (Depends definitions) ∧ key ∈ path
  | .tooDeep => room ≤ definitions.length

theorem visitAll_error {room : Nat} {path keys order : List Text} {disorder : Disorder}
    (refused : keys.foldlM (visit definitions room path) order = .error disorder) :
    ∃ key ∈ keys, ∃ reached, visit definitions room path reached key = .error disorder := by
  induction keys generalizing order with
  | nil => cases refused
  | cons key rest ih =>
    rw [List.foldlM_cons, Attempt.bind_eq_error] at refused
    rcases refused with here | ⟨middle, -, later⟩
    · exact ⟨key, by simp, order, here⟩
    · obtain ⟨other, member, reached⟩ := ih later
      exact ⟨other, List.mem_cons_of_mem _ member, reached⟩

/-- The room that is left and the length of the path stay the same together. -/
theorem visit_error {room : Nat} {path order : List Text} {key : Text} {disorder : Disorder}
    (refused : visit definitions room path order key = .error disorder)
    (leads : Leads definitions path key) :
    Explained definitions (room + path.length) disorder := by
  induction room generalizing path order key with
  | zero =>
    cases refused
    simpa [Explained] using leads.length_le
  | succ room ih =>
    rw [visit] at refused
    split at refused
    next => cases refused
    next =>
      split at refused
      next on =>
        cases refused
        exact ⟨path, key, rfl, leads.walk, on⟩
      next off =>
        split at refused
        next missing =>
          cases refused
          have undefined := Keyed.find?_eq_none_iff.mp missing
          exact ⟨undefined, leads.asked.resolve_left undefined⟩
        next anchor defined =>
          rcases Attempt.bind_eq_error.mp refused with bases | ⟨middle, -, added⟩
          · obtain ⟨base, member, reached, deeper⟩ := visitAll_error bases
            have explained := ih deeper (leads.extend off defined member)
            rwa [List.length_append, List.length_singleton, ← Nat.add_assoc, Nat.add_right_comm]
              at explained
          · cases added

theorem orderWithin_ok {room : Nat} {order : List Text}
    (found : orderWithin room definitions = .ok order) :
    Ordered definitions order ∧ ∀ key, key ∈ order ↔ key ∈ Keyed.keys definitions := by
  obtain ⟨⟨ordered, -⟩, all⟩ := visitAll_ok visit_ok found .nil
  exact ⟨ordered, fun key => ⟨ordered.mem_keys, all key⟩⟩

theorem orderWithin_error {room : Nat} {disorder : Disorder}
    (refused : orderWithin room definitions = .error disorder) :
    Explained definitions room disorder := by
  obtain ⟨key, member, reached, here⟩ := visitAll_error refused
  exact visit_error here ⟨by simp, by simp, by simp, Or.inl member⟩

theorem closed_and_acyclic {room : Nat} {order : List Text}
    (found : orderWithin room definitions = .ok order) :
    Closed definitions ∧ Acyclic definitions := by
  obtain ⟨ordered, all⟩ := orderWithin_ok found
  exact ⟨ordered.closed fun key => (all key).mpr, ordered.acyclic fun key => (all key).mpr⟩

theorem orderWithin_cases (room : Nat) (closed : Closed definitions)
    (acyclic : Acyclic definitions) :
    (∃ order, orderWithin room definitions = .ok order) ∨
      orderWithin room definitions = .error .tooDeep ∧ room ≤ definitions.length := by
  cases found : orderWithin room definitions with
  | ok order => exact Or.inl ⟨order, rfl⟩
  | error disorder =>
    have explained := orderWithin_error found
    cases disorder with
    | undefined key =>
      obtain ⟨undefined, other, depends⟩ := explained
      exact absurd (closed other key depends) undefined
    | cycle walk =>
      obtain ⟨path, key, rfl, steps, again⟩ := explained
      exact absurd acyclic (not_acyclic_of_walk steps again)
    | tooDeep => exact Or.inr ⟨rfl, explained⟩

theorem exists_orderWithin_iff {room : Nat} (spacious : definitions.length < room) :
    (∃ order, orderWithin room definitions = .ok order) ↔
      Closed definitions ∧ Acyclic definitions := by
  constructor
  · rintro ⟨order, found⟩
    exact closed_and_acyclic found
  · rintro ⟨closed, acyclic⟩
    rcases orderWithin_cases room closed acyclic with found | ⟨-, narrow⟩
    · exact found
    · exact absurd narrow (Nat.not_le.mpr spacious)

def DependsFirst (definitions : Definitions) (key base : Text) : Prop :=
  ∃ anchor more, Keyed.find? definitions key = some anchor ∧ anchor.dependsOn = base :: more

theorem visit_tooDeep {room : Nat} {path rest : List Text} {key : Text}
    (walk : (key :: rest).IsChain (DependsFirst definitions))
    (distinct : (path ++ key :: rest).Nodup) (long : room ≤ rest.length) :
    visit definitions room path [] key = .error .tooDeep := by
  induction room generalizing path key rest with
  | zero => rfl
  | succ room ih =>
    cases rest with
    | nil => cases long
    | cons base rest =>
      obtain ⟨⟨anchor, more, defined, names⟩, walk⟩ := List.isChain_cons_cons.mp walk
      have off : key ∉ path := by
        intro on
        exact (List.nodup_append.mp distinct).2.2 key on key (by simp) rfl
      have deeper : visit definitions room (path ++ [key]) [] base = .error .tooDeep :=
        ih walk (by simpa using distinct) (by simpa using long)
      rw [visit, if_neg (by simp), if_neg off]
      simp only [defined, names, List.foldlM_cons, deeper]
      rfl

theorem visitAll_known {room : Nat} {path keys order : List Text}
    (known : ∀ key ∈ keys, key ∈ order) :
    keys.foldlM (visit definitions (room + 1) path) order = .ok order := by
  induction keys with
  | nil => rfl
  | cons key rest ih =>
    have here : visit definitions (room + 1) path order key = .ok order := by
      rw [visit, if_pos (known key (by simp))]
    rw [List.foldlM_cons, here]
    exact ih fun other member => known other (List.mem_cons_of_mem _ member)

theorem visitAll_ordered {room : Nat} {before after : List Text}
    (ordered : Ordered definitions (before ++ after)) :
    after.foldlM (visit definitions (room + 2) []) before = .ok (before ++ after) := by
  induction after generalizing before with
  | nil => simp [pure, Except.pure]
  | cons key rest ih =>
    have fresh : key ∉ before := by
      intro member
      exact (List.nodup_append.mp ordered.nodup).2.2 key member key (by simp) rfl
    have here : key ∈ before ++ key :: rest := by simp
    obtain ⟨anchor, defined⟩ := Keyed.mem_keys_iff.mp (ordered.mem_keys here)
    have bases : ∀ base ∈ anchor.dependsOn, base ∈ before :=
      fun base names => ordered.base_before ⟨anchor, defined, names⟩
    have taken : visit definitions (room + 2) [] before key = .ok (before ++ [key]) := by
      rw [visit, if_neg fresh, if_neg (by simp)]
      simp only [defined, visitAll_known bases]
      rfl
    rw [List.append_cons] at ordered ⊢
    rw [List.foldlM_cons, taken]
    exact ih ordered

theorem orderWithin_of_ordered {room : Nat}
    (ordered : Ordered definitions (Keyed.keys definitions)) :
    orderWithin (room + 2) definitions = .ok (Keyed.keys definitions) := by
  rw [← List.nil_append (Keyed.keys definitions)] at ordered
  exact visitAll_ordered ordered

end FeastCalendar.Definitions
