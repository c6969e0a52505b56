import Mathlib.Data.List.Forall2
import Mathlib.Tactic.Push

/-!
Steps that may fail, one after another. A chain of them succeeds when each step does, and fails
with the failure of the first step that does not.
-/

namespace FeastCalendar.Attempt

variable {ε δ α β : Type}

theorem ok_bind (value : α) (next : α → Except ε β) : Except.ok value >>= next = next value := by
  simp only [bind, Except.bind]

theorem bind_eq_ok {first : Except ε α} {next : α → Except ε β} {result : β} :
    first >>= next = .ok result ↔ ∃ value, first = .ok value ∧ next value = .ok result := by
  cases first <;> simp [bind, Except.bind]

theorem exists_bind {first : Except ε α} {next : α → Except ε β}
    (begins : ∃ value, first = .ok value) (goesOn : ∀ value, ∃ result, next value = .ok result) :
    ∃ result, first >>= next = .ok result := by
  obtain ⟨value, found⟩ := begins
  obtain ⟨result, reached⟩ := goesOn value
  exact ⟨result, bind_eq_ok.mpr ⟨value, found, reached⟩⟩

theorem bind_eq_error {first : Except ε α} {next : α → Except ε β} {failure : ε} :
    first >>= next = .error failure ↔
      first = .error failure ∨ ∃ value, first = .ok value ∧ next value = .error failure := by
  cases first <;> simp [bind, Except.bind]

theorem exists_error_iff {attempt : Except ε α} :
    (∃ failure, attempt = .error failure) ↔ ¬∃ value, attempt = .ok value := by
  cases attempt <;> simp

theorem bind_congr {first : Except ε α} {next other : α → Except ε β}
    (same : ∀ value, first = .ok value → next value = other value) :
    first >>= next = first >>= other := by
  cases first with
  | error failure => rfl
  | ok value => exact same value rfl

theorem pure_eq_ok {value result : α} : (pure value : Except ε α) = .ok result ↔ value = result := by
  simp [pure, Except.pure]

theorem mapError_eq_ok {first : Except ε α} {change : ε → δ} {value : α} :
    first.mapError change = .ok value ↔ first = .ok value := by
  cases first with
  | error cause => exact ⟨nofun, nofun⟩
  | ok found =>
    constructor
    · intro same
      cases same
      rfl
    · intro same
      cases same
      rfl

theorem mapError_eq_error {first : Except ε α} {change : ε → δ} {failure : δ} :
    first.mapError change = .error failure ↔
      ∃ cause, first = .error cause ∧ change cause = failure := by
  cases first with
  | error cause =>
    constructor
    · intro same
      exact ⟨cause, rfl, Except.error.inj same⟩
    · rintro ⟨_, same, rfl⟩
      cases same
      rfl
  | ok found => exact ⟨nofun, fun ⟨_, same, _⟩ => nomatch same⟩

def FailsOnly (allowed : ε → Prop) (attempt : Except ε α) : Prop :=
  ∀ failure, attempt = .error failure → allowed failure

variable {allowed : ε → Prop}

theorem failsOnly_ok (value : α) : FailsOnly allowed (.ok value) :=
  fun _ refused => nomatch refused

theorem failsOnly_error {failure : ε} (fits : allowed failure) :
    FailsOnly allowed (.error failure : Except ε α) := by
  intro other same
  cases same
  exact fits

theorem FailsOnly.bind {first : Except ε α} {next : α → Except ε β}
    (start : FailsOnly allowed first)
    (rest : ∀ value, first = .ok value → FailsOnly allowed (next value)) :
    FailsOnly allowed (first >>= next) := by
  intro failure refused
  rcases bind_eq_error.mp refused with here | ⟨value, found, later⟩
  · exact start failure here
  · exact rest value found failure later

theorem FailsOnly.mono {wider : ε → Prop} {attempt : Except ε α} (fits : FailsOnly allowed attempt)
    (widens : ∀ failure, allowed failure → wider failure) : FailsOnly wider attempt :=
  fun failure refused => widens failure (fits failure refused)

theorem failsOnly_mapError {first : Except ε α} {change : ε → δ} {allowed : δ → Prop}
    (fits : ∀ cause, first = .error cause → allowed (change cause)) :
    FailsOnly allowed (first.mapError change) := by
  intro failure refused
  obtain ⟨cause, found, rfl⟩ := mapError_eq_error.mp refused
  exact fits cause found

/-- An attempt that meets a grave failure unless something holds; if it fails then, it is in an
allowed way. -/
structure GraveUnless (grave : ε) (allowed : ε → Prop) (stays : Prop) (attempt : Except ε α) :
    Prop where
  allow : stays → FailsOnly allowed attempt
  leave : ¬stays → attempt = .error grave

namespace GraveUnless

variable {grave : ε} {stays other : Prop}

theorem of_holds {attempt : Except ε α} (fits : FailsOnly allowed attempt) (holds : stays) :
    GraveUnless grave allowed stays attempt :=
  ⟨fun _ => fits, fun never => absurd holds never⟩

theorem of_failsOnly {attempt : Except ε α} (fits : FailsOnly allowed attempt) :
    GraveUnless grave allowed True attempt := of_holds fits trivial

theorem failsOnly {attempt : Except ε α} (leaves : GraveUnless grave allowed stays attempt)
    (fits : allowed grave) : FailsOnly allowed attempt := by
  by_cases holds : stays
  · exact leaves.allow holds
  · rw [leaves.leave holds]
    exact failsOnly_error fits

theorem congr {attempt : Except ε α} (leaves : GraveUnless grave allowed stays attempt)
    (same : stays ↔ other) : GraveUnless grave allowed other attempt :=
  ⟨fun holds => leaves.allow (same.mpr holds), fun fails => leaves.leave (mt same.mp fails)⟩

/-- One step after another stays if the first does and the second does from where the first led. -/
theorem bind {first : Except ε α} {next : α → Except ε β}
    (start : GraveUnless grave allowed stays first) (later : α → Prop)
    (rest : ∀ value, first = .ok value → GraveUnless grave allowed (later value) (next value)) :
    GraveUnless grave allowed (stays ∧ ∀ value, first = .ok value → later value)
      (first >>= next) := by
  refine ⟨?_, ?_⟩
  · rintro ⟨here, there⟩
    exact (start.allow here).bind fun value found => (rest value found).allow (there value found)
  · intro fails
    by_cases here : stays
    · have astray : ∃ value, first = .ok value ∧ ¬later value := by
        by_contra none
        push Not at none
        exact fails ⟨here, none⟩
      obtain ⟨value, found, gone⟩ := astray
      exact bind_eq_error.mpr (Or.inr ⟨value, found, (rest value found).leave gone⟩)
    · exact bind_eq_error.mpr (Or.inl (start.leave here))

theorem mapError {attempt : Except ε α} {change : ε → ε}
    (leaves : GraveUnless grave allowed stays attempt)
    (keeps : ∀ failure, allowed failure → allowed (change failure)) (fixed : change grave = grave) :
    GraveUnless grave allowed stays (attempt.mapError change) := by
  refine ⟨?_, ?_⟩
  · intro holds
    exact failsOnly_mapError fun cause found => keeps cause (leaves.allow holds cause found)
  · intro fails
    exact mapError_eq_error.mpr ⟨grave, leaves.leave fails, fixed⟩

end GraveUnless

theorem mapError_bind {change : ε → δ} {first : Except ε α} {next : α → Except ε β} :
    (first >>= next).mapError change =
      first.mapError change >>= fun value => (next value).mapError change := by
  cases first <;> rfl

theorem mapError_bind_congr {change : ε → δ} {first other : Except ε α}
    {next otherNext : α → Except ε β} (start : first.mapError change = other.mapError change)
    (later : ∀ value, first = .ok value →
      (next value).mapError change = (otherNext value).mapError change) :
    (first >>= next).mapError change = (other >>= otherNext).mapError change := by
  rw [mapError_bind, mapError_bind, ← start]
  refine bind_congr fun value found => ?_
  cases first with
  | error failure => cases found
  | ok own =>
    cases found
    exact later _ rfl

section Lists

variable {step : α → Except ε β} {given : List α} {results : List β}

theorem mapM_eq_ok :
    given.mapM step = .ok results ↔
      List.Forall₂ (fun value result => step value = .ok result) given results := by
  induction given generalizing results with
  | nil =>
    rw [List.mapM_nil, pure_eq_ok, List.forall₂_nil_left_iff]
    exact eq_comm
  | cons value rest ih =>
    simp only [List.mapM_cons, bind_eq_ok, pure_eq_ok, List.forall₂_cons_left_iff, ih]
    constructor
    · rintro ⟨result, found, others, later, rfl⟩
      exact ⟨result, others, found, later, rfl⟩
    · rintro ⟨result, others, found, later, rfl⟩
      exact ⟨result, found, others, later, rfl⟩

theorem exists_mem_of_mapM (found : given.mapM step = .ok results) {value : α}
    (member : value ∈ given) : ∃ result ∈ results, step value = .ok result := by
  induction mapM_eq_ok.mp found with
  | nil => cases member
  | @cons first own rest others here later ih =>
    rcases List.mem_cons.mp member with rfl | further
    · exact ⟨own, List.mem_cons_self .., here⟩
    · obtain ⟨result, listed, gives⟩ := ih (mapM_eq_ok.mpr later) further
      exact ⟨result, List.mem_cons_of_mem _ listed, gives⟩

theorem exists_mapM (each : ∀ value ∈ given, ∃ result, step value = .ok result) :
    ∃ results, given.mapM step = .ok results := by
  induction given with
  | nil => exact ⟨[], rfl⟩
  | cons value rest ih =>
    obtain ⟨result, found⟩ := each value (List.mem_cons_self ..)
    obtain ⟨others, later⟩ := ih fun other member => each other (List.mem_cons_of_mem _ member)
    exact ⟨result :: others, mapM_eq_ok.mpr (.cons found (mapM_eq_ok.mp later))⟩

theorem exists_mapM_map {γ : Type} {view : β → γ} {expected : α → γ}
    (each : ∀ value ∈ given, ∃ result, step value = .ok result ∧ view result = expected value) :
    ∃ results, given.mapM step = .ok results ∧ results.map view = given.map expected := by
  induction given with
  | nil => exact ⟨[], rfl, rfl⟩
  | cons value rest ih =>
    obtain ⟨result, found, seen⟩ := each value (List.mem_cons_self ..)
    obtain ⟨others, later, alike⟩ := ih fun other member => each other (List.mem_cons_of_mem _ member)
    refine ⟨result :: others, mapM_eq_ok.mpr (.cons found (mapM_eq_ok.mp later)), ?_⟩
    rw [List.map_cons, List.map_cons, seen, alike]

theorem mem_of_mapM (found : given.mapM step = .ok results) {result : β} :
    result ∈ results ↔ ∃ value ∈ given, step value = .ok result := by
  induction mapM_eq_ok.mp found with
  | nil => simp
  | @cons value own rest others here later ih =>
    have below := ih (mapM_eq_ok.mpr later)
    simp only [List.mem_cons, exists_eq_or_imp, below, here, Except.ok.injEq]
    exact or_congr_left eq_comm

theorem FailsOnly.mapM (each : ∀ value ∈ given, FailsOnly allowed (step value)) :
    FailsOnly allowed (given.mapM step) := by
  induction given with
  | nil => exact failsOnly_ok []
  | cons value rest ih =>
    obtain ⟨own, later⟩ := List.forall_mem_cons.mp each
    rw [List.mapM_cons]
    exact own.bind fun result _ => (ih later).bind fun results _ => failsOnly_ok _

theorem FailsOnly.foldlM {step : β → α → Except ε β} {start : β}
    (each : ∀ result, ∀ value ∈ given, FailsOnly allowed (step result value)) :
    FailsOnly allowed (given.foldlM step start) := by
  induction given generalizing start with
  | nil => exact failsOnly_ok start
  | cons value rest ih =>
    rw [List.foldlM_cons]
    exact (each start value (List.mem_cons_self ..)).bind fun result _ =>
      ih fun result other member => each result other (List.mem_cons_of_mem _ member)

theorem GraveUnless.mapM {grave : ε} {allowed : ε → Prop} {strays : α → Prop}
    (each : ∀ value ∈ given, GraveUnless grave allowed (¬strays value) (step value)) :
    GraveUnless grave allowed
      (¬∃ before value after, given = before ++ value :: after ∧
        (∀ earlier ∈ before, ∃ result, step earlier = .ok result) ∧ strays value)
      (given.mapM step) := by
  induction given with
  | nil =>
    refine (GraveUnless.of_failsOnly (failsOnly_ok [])).congr ?_
    simp
  | cons first rest ih =>
    rw [List.mapM_cons]
    obtain ⟨head, tail⟩ := List.forall_mem_cons.mp each
    refine (head.bind _ fun result _ => (ih tail).bind (fun _ => True) fun results _ =>
      GraveUnless.of_failsOnly (failsOnly_ok _)).congr ?_
    simp only [implies_true, and_true]
    constructor
    · rintro ⟨here, there⟩ ⟨before, value, after, shape, earlier, astray⟩
      cases before with
      | nil =>
        obtain ⟨same, -⟩ := List.cons.inj shape
        exact here (same ▸ astray)
      | cons head before =>
        obtain ⟨same, tail⟩ := List.cons.inj shape
        subst same
        obtain ⟨⟨result, found⟩, later⟩ := List.forall_mem_cons.mp earlier
        exact there result found ⟨before, value, after, tail, later, astray⟩
    · intro none
      refine ⟨fun astray => none ⟨[], first, rest, rfl, by simp, astray⟩, ?_⟩
      rintro result found ⟨before, value, after, rfl, earlier, astray⟩
      exact none ⟨first :: before, value, after, rfl,
        List.forall_mem_cons.mpr ⟨⟨result, found⟩, earlier⟩, astray⟩

end Lists

end FeastCalendar.Attempt
