import Mathlib.Data.List.Perm.Basic
import FeastCalendar.Attempt
import FeastCalendar.Novena.Batch
import FeastCalendar.Proofs.Novena.Window
import FeastCalendar.Proofs.Rule.Reach
import FeastCalendar.Proofs.Sorting
import FeastCalendar.Proofs.Text.Order

/-!
Many novenas in one year, each against what it does alone. Where every one resolves or is at fault,
the batch holds the windows of the former by start and title and the faults of the latter in their
order; any other failure is that of the batch.
-/

namespace FeastCalendar
open Civil (Date)

namespace NovenaInstance

/-- The text of a title; a title that is no text counts as the empty one. -/
def titleText (window : NovenaInstance) : Text :=
  match window.title with
  | .str text => text
  | _ => []

def place (window : NovenaInstance) : Date × Text := (window.start, window.titleText)

def NoLater (left right : Date × Text) : Prop :=
  left.1 < right.1 ∨ left.1 = right.1 ∧ left.2 ≤ right.2

instance (left right : Date × Text) : Decidable (NoLater left right) :=
  inferInstanceAs (Decidable (_ ∨ _))

theorem NoLater.trans {first second third : Date × Text} (before : NoLater first second)
    (after : NoLater second third) : NoLater first third := by
  unfold NoLater at *
  simp only [Date.lt_iff] at *
  rcases before with early | ⟨same, ordered⟩
  · left
    rcases after with later | ⟨alike, -⟩
    · omega
    · rwa [← alike]
  · rcases after with later | ⟨alike, further⟩
    · left
      rwa [same]
    · exact Or.inr ⟨same.trans alike, List.le_trans ordered further⟩

theorem NoLater.total (left right : Date × Text) : NoLater left right ∨ NoLater right left := by
  unfold NoLater
  simp only [Date.lt_iff]
  rcases Int.lt_trichotomy left.1.number right.1.number with before | same | after
  · exact Or.inl (Or.inl before)
  · have date := Date.eq_of_number same
    rcases List.le_total left.2 right.2 with below | above
    · exact Or.inl (Or.inr ⟨date, below⟩)
    · exact Or.inr (Or.inr ⟨date.symm, above⟩)
  · exact Or.inr (Or.inl after)

theorem NoLater.refl (spot : Date × Text) : NoLater spot spot := Or.inr ⟨rfl, List.le_refl spot.2⟩

theorem NoLater.antisymm {left right : Date × Text} (before : NoLater left right)
    (after : NoLater right left) : left = right := by
  unfold NoLater at *
  simp only [Date.lt_iff] at *
  rcases before with early | ⟨date, below⟩
  · rcases after with later | ⟨same, -⟩
    · omega
    · rw [same] at early
      omega
  · rcases after with later | ⟨-, above⟩
    · rw [date] at later
      omega
    · exact Prod.ext date (List.le_antisymm below above)

/-- Values sorted by their places; those of one place stand as they were given. -/
structure StablyPlaced {α : Type} (place : α → Date × Text) (given sorted : List α) : Prop where
  perm : sorted.Perm given
  ordered : (sorted.map place).Pairwise NoLater
  stable : ∀ spot, sorted.filter (fun value => decide (place value = spot)) =
    given.filter fun value => decide (place value = spot)

theorem stablyPlaced_mergeSort {α : Type} (place : α → Date × Text) (given : List α) :
    StablyPlaced place given
      (given.mergeSort fun left right => decide (NoLater (place left) (place right))) := by
  have trans : ∀ first second third : α, decide (NoLater (place first) (place second)) = true →
      decide (NoLater (place second) (place third)) = true →
        decide (NoLater (place first) (place third)) = true := by
    intro first second third before after
    rw [decide_eq_true_eq] at *
    exact before.trans after
  have total : ∀ left right : α, (decide (NoLater (place left) (place right)) ||
      decide (NoLater (place right) (place left))) = true := by
    intro left right
    simpa using NoLater.total (place left) (place right)
  refine ⟨List.mergeSort_perm given _, ?_, ?_⟩
  · rw [List.pairwise_map]
    refine (List.pairwise_mergeSort trans total given).imp fun ordered => ?_
    rwa [decide_eq_true_eq] at ordered
  · intro spot
    apply Sorting.filter_mergeSort trans total
    intro left right leftPlace rightPlace
    rw [decide_eq_true_eq] at leftPlace rightPlace
    rw [decide_eq_true_eq, leftPlace, rightPlace]
    exact NoLater.refl spot

structure StablySorted (given sorted : List NovenaInstance) : Prop where
  perm : sorted.Perm given
  ordered : (sorted.map place).Pairwise NoLater
  stable : ∀ spot, sorted.filter (fun window => decide (window.place = spot)) =
    given.filter fun window => decide (window.place = spot)

def Titled (window : NovenaInstance) : Prop := ∃ text, window.title = .str text

theorem comparable_of_titled {left right : NovenaInstance} (leftTitled : left.Titled)
    (rightTitled : right.Titled) : left.comparable right = true := by
  obtain ⟨leftText, leftTitle⟩ := leftTitled
  obtain ⟨rightText, rightTitle⟩ := rightTitled
  simp [comparable, leftTitle, rightTitle, Json.compare?]

theorem compare?_ne_gt (left right : Text) :
    (Json.compare? (.str left) (.str right) != some .gt) = decide (left ≤ right) := by
  rw [Json.compare?]
  by_cases below : left < right
  · have ordered : left ≤ right := List.le_of_lt below
    simp [below, ordered]
  · by_cases above : right < left
    · have disordered : ¬left ≤ right := List.not_le.mpr above
      simp [below, above, disordered]
    · have ordered : left ≤ right := List.not_lt.mp above
      simp [below, above, ordered]

theorem startsNoLater_of_titled {left right : NovenaInstance} (leftTitled : left.Titled)
    (rightTitled : right.Titled) :
    left.startsNoLater right = decide (NoLater left.place right.place) := by
  obtain ⟨leftText, leftTitle⟩ := leftTitled
  obtain ⟨rightText, rightTitle⟩ := rightTitled
  simp only [startsNoLater, NoLater, place, titleText, leftTitle, rightTitle, compare?_ne_gt,
    Bool.decide_or, Bool.decide_and]

theorem sort_eq_ok {instances : List NovenaInstance} (titled : ∀ window ∈ instances, window.Titled) :
    ∃ sorted, sort instances = .ok sorted ∧ StablySorted instances sorted := by
  have comparables : (instances.all fun left => instances.all left.comparable) = true := by
    simp only [List.all_eq_true]
    intro left leftMember right rightMember
    exact comparable_of_titled (titled left leftMember) (titled right rightMember)
  have sorted := stablyPlaced_mergeSort place instances
  rw [← Sorting.mergeSort_congr fun left leftMember right rightMember =>
    startsNoLater_of_titled (titled left leftMember) (titled right rightMember)] at sorted
  refine ⟨instances.mergeSort startsNoLater, ?_, sorted.perm, sorted.ordered, sorted.stable⟩
  rw [sort, if_pos comparables]

theorem StablySorted.places_eq {given other sorted otherSorted : List NovenaInstance}
    (found : StablySorted given sorted) (otherFound : StablySorted other otherSorted)
    (perm : other.Perm given) :
    otherSorted.Perm sorted ∧ otherSorted.map place = sorted.map place := by
  have same : otherSorted.Perm sorted := (otherFound.perm.trans perm).trans found.perm.symm
  refine ⟨same, ?_⟩
  exact (same.map place).eq_of_pairwise (fun _ _ _ _ before after => before.antisymm after)
    otherFound.ordered found.ordered

end NovenaInstance

namespace NovenaBatch

variable {year : Json} {anchors : Anchors}

/-- A novena that resolves or is at fault, so that it does not end a batch. -/
def Isolated (year : Json) (anchors : Anchors) (novena : Novena) : Prop :=
  Attempt.FailsOnly Failure.IsFault (novena.resolve year anchors)

theorem isolated_of_ok {novena : Novena} {window : NovenaInstance}
    (found : novena.resolve year anchors = .ok window) : Isolated year anchors novena := by
  rw [Isolated, found]
  exact Attempt.failsOnly_ok window

theorem isolated_of_fault {novena : Novena} {fault : Fault}
    (refused : novena.resolve year anchors = .error (.fault fault)) :
    Isolated year anchors novena := by
  rw [Isolated, refused]
  exact Attempt.failsOnly_error ⟨fault, rfl⟩

theorem isolated_or_first (year : Json) (anchors : Anchors) (novenas : List Novena) :
    (∀ novena ∈ novenas, Isolated year anchors novena) ∨
      ∃ before novena after, novenas = before ++ novena :: after ∧
        (∀ earlier ∈ before, Isolated year anchors earlier) ∧ ¬Isolated year anchors novena := by
  induction novenas with
  | nil => exact Or.inl (by simp)
  | cons first rest ih =>
    by_cases own : Isolated year anchors first
    · rcases ih with all | ⟨before, novena, after, rfl, earlier, grave⟩
      · exact Or.inl (List.forall_mem_cons.mpr ⟨own, all⟩)
      · exact Or.inr ⟨first :: before, novena, after, rfl,
          List.forall_mem_cons.mpr ⟨own, earlier⟩, grave⟩
    · exact Or.inr ⟨[], first, rest, rfl, by simp, own⟩

def windowOf (year : Json) (anchors : Anchors) (novena : Novena) : Option NovenaInstance :=
  (novena.resolve year anchors).toOption

theorem windowOf_eq_some_iff {novena : Novena} {window : NovenaInstance} :
    windowOf year anchors novena = some window ↔ novena.resolve year anchors = .ok window := by
  unfold windowOf
  cases novena.resolve year anchors <;> simp [Except.toOption]

def faultOf (year : Json) (anchors : Anchors) (novena : Novena) : Option NovenaFailure :=
  match novena.resolve year anchors with
  | .error (.fault fault) => some ⟨novena.id, fault⟩
  | _ => none

theorem resolveAll_cons {novena : Novena} (own : Isolated year anchors novena)
    (rest : List Novena) :
    resolveAll year anchors (novena :: rest) =
      (resolveAll year anchors rest).map fun (windows, faults) =>
        ((windowOf year anchors novena).toList ++ windows,
          (faultOf year anchors novena).toList ++ faults) := by
  unfold Isolated at own
  rw [resolveAll, windowOf, faultOf]
  cases found : novena.resolve year anchors with
  | ok window => cases resolveAll year anchors rest <;> rfl
  | error failure =>
    obtain ⟨fault, rfl⟩ := own failure found
    cases resolveAll year anchors rest <;> rfl

theorem resolveAll_eq_ok {novenas : List Novena}
    (isolated : ∀ novena ∈ novenas, Isolated year anchors novena) :
    resolveAll year anchors novenas =
      .ok (novenas.filterMap (windowOf year anchors), novenas.filterMap (faultOf year anchors)) := by
  induction novenas with
  | nil => rfl
  | cons novena rest ih =>
    obtain ⟨own, later⟩ := List.forall_mem_cons.mp isolated
    rw [resolveAll_cons own, ih later, List.filterMap_cons, List.filterMap_cons]
    cases windowOf year anchors novena <;> cases faultOf year anchors novena <;> rfl

theorem resolveAll_eq_error {before after : List Novena} {novena : Novena} {failure : Failure}
    (isolated : ∀ other ∈ before, Isolated year anchors other)
    (refused : novena.resolve year anchors = .error failure) (grave : ¬failure.IsFault) :
    resolveAll year anchors (before ++ novena :: after) = .error failure := by
  induction before with
  | nil =>
    rw [List.nil_append, resolveAll, refused]
    cases failure with
    | fault fault => exact absurd ⟨fault, rfl⟩ grave
    | _ => rfl
  | cons first rest ih =>
    obtain ⟨own, later⟩ := List.forall_mem_cons.mp isolated
    rw [List.cons_append, resolveAll_cons own, ih later]
    rfl

theorem length_windows_add_faults {novenas : List Novena}
    (isolated : ∀ novena ∈ novenas, Isolated year anchors novena) :
    (novenas.filterMap (windowOf year anchors)).length +
      (novenas.filterMap (faultOf year anchors)).length = novenas.length := by
  induction novenas with
  | nil => rfl
  | cons novena rest ih =>
    have later := ih fun other member => isolated other (List.mem_cons_of_mem _ member)
    have own := isolated novena (List.mem_cons_self ..)
    unfold Isolated at own
    simp only [List.filterMap_cons, windowOf, faultOf] at *
    cases found : novena.resolve year anchors with
    | ok window =>
      simp only [Except.toOption, List.length_cons]
      omega
    | error failure =>
      obtain ⟨fault, rfl⟩ := own failure found
      simp only [Except.toOption, List.length_cons]
      omega

theorem titled_of_windowOf {novenas : List Novena} {window : NovenaInstance}
    (titled : ∀ novena ∈ novenas, ∃ text, novena.title = .str text)
    (member : window ∈ novenas.filterMap (windowOf year anchors)) : window.Titled := by
  obtain ⟨novena, listed, found⟩ := List.mem_filterMap.mp member
  obtain ⟨duration, feast, start, hint, -, -, rfl⟩ :=
    Novena.resolve_eq_ok.mp (windowOf_eq_some_iff.mp found)
  exact titled novena listed

theorem resolve_eq_ok {novenas : List Novena}
    (titled : ∀ novena ∈ novenas, ∃ text, novena.title = .str text)
    (isolated : ∀ novena ∈ novenas, Isolated year anchors novena) :
    ∃ sorted, NovenaInstance.sort (novenas.filterMap (windowOf year anchors)) = .ok sorted ∧
      NovenaInstance.StablySorted (novenas.filterMap (windowOf year anchors)) sorted ∧
      resolve novenas year anchors = .ok ⟨year, sorted, novenas.filterMap (faultOf year anchors)⟩ := by
  obtain ⟨sorted, found, stably⟩ :=
    NovenaInstance.sort_eq_ok fun window member => titled_of_windowOf titled member
  refine ⟨sorted, found, stably, ?_⟩
  refine Attempt.bind_eq_ok.mpr ⟨_, resolveAll_eq_ok isolated, ?_⟩
  exact Attempt.bind_eq_ok.mpr ⟨sorted, found, rfl⟩

theorem resolve_eq_error {before after : List Novena} {novena : Novena} {failure : Failure}
    (isolated : ∀ other ∈ before, Isolated year anchors other)
    (refused : novena.resolve year anchors = .error failure) (grave : ¬failure.IsFault) :
    resolve (before ++ novena :: after) year anchors = .error failure :=
  Attempt.bind_eq_error.mpr (Or.inl (resolveAll_eq_error isolated refused grave))

theorem isolated_of_resolve {novenas : List Novena} {batch : NovenaBatch}
    (resolved : resolve novenas year anchors = .ok batch) :
    ∀ novena ∈ novenas, Isolated year anchors novena := by
  rcases isolated_or_first year anchors novenas with all | ⟨before, novena, after, rfl, earlier, grave⟩
  · exact all
  · unfold Isolated Attempt.FailsOnly at grave
    push Not at grave
    obtain ⟨failure, refused, noFault⟩ := grave
    cases resolved.symm.trans (resolve_eq_error earlier refused noFault)

theorem titled_of_resolve {novenas : List Novena} {batch : NovenaBatch}
    (titled : ∀ novena ∈ novenas, ∃ text, novena.title = .str text)
    (resolved : resolve novenas year anchors = .ok batch) :
    ∀ window ∈ batch.instances, window.Titled := by
  obtain ⟨sorted, -, stably, own⟩ := resolve_eq_ok titled (isolated_of_resolve resolved)
  cases resolved.symm.trans own
  exact fun window member => titled_of_windowOf titled (stably.perm.mem_iff.mp member)

def resolves (year : Json) (anchors : Anchors) (novena : Novena) : Bool :=
  (windowOf year anchors novena).isSome

theorem filterMap_windowOf_filter (novenas : List Novena) :
    (novenas.filter (resolves year anchors)).filterMap (windowOf year anchors) =
      novenas.filterMap (windowOf year anchors) := by
  rw [List.filterMap_filter]
  refine List.filterMap_congr fun novena _ => ?_
  unfold resolves
  cases windowOf year anchors novena <;> rfl

/-- A batch in which no entry fails otherwise than by a fault holds the windows of those that
resolve, stably by start and title, and the faults of the others in their order. Entries at fault
matter to no window; the order of the entries matters only to windows that tie. A failure other
than a fault is that of the batch, the first one if there are several. -/
theorem resolve_isolates (novenas : List Novena) (year : Json) (anchors : Anchors)
    (titled : ∀ novena ∈ novenas, ∃ text, novena.title = .str text) :
    ((∀ novena ∈ novenas, Isolated year anchors novena) →
      ∃ batch, resolve novenas year anchors = .ok batch ∧ batch.year = year ∧
        NovenaInstance.StablySorted (novenas.filterMap (windowOf year anchors)) batch.instances ∧
        batch.failures = novenas.filterMap (faultOf year anchors) ∧
        batch.instances.length + batch.failures.length = novenas.length ∧
        (∀ others, (∀ other ∈ others, ∃ text, other.title = .str text) →
          (∀ other ∈ others, Isolated year anchors other) →
          others.filter (resolves year anchors) = novenas.filter (resolves year anchors) →
          ∃ second, resolve others year anchors = .ok second ∧
            second.instances = batch.instances) ∧
        ∀ others, others.Perm novenas →
          ∃ second, resolve others year anchors = .ok second ∧
            second.instances.Perm batch.instances ∧
            second.instances.map NovenaInstance.place =
              batch.instances.map NovenaInstance.place) ∧
    ∀ before novena after failure, novenas = before ++ novena :: after →
      (∀ earlier ∈ before, Isolated year anchors earlier) →
      novena.resolve year anchors = .error failure → ¬failure.IsFault →
      resolve novenas year anchors = .error failure := by
  refine ⟨?_, ?_⟩
  · intro isolated
    obtain ⟨sorted, found, stably, resolved⟩ := resolve_eq_ok titled isolated
    refine ⟨_, resolved, rfl, stably, rfl, ?_, ?_, ?_⟩
    · have lengths := length_windows_add_faults isolated
      rwa [← stably.perm.length_eq] at lengths
    · intro others otherTitled otherIsolated same
      obtain ⟨otherSorted, otherFound, -, otherResolved⟩ :=
        resolve_eq_ok otherTitled otherIsolated
      rw [← filterMap_windowOf_filter, same, filterMap_windowOf_filter, found] at otherFound
      cases otherFound
      exact ⟨_, otherResolved, rfl⟩
    · intro others perm
      obtain ⟨otherSorted, -, otherStably, otherResolved⟩ :=
        resolve_eq_ok (fun other member => titled other (perm.mem_iff.mp member))
          fun other member => isolated other (perm.mem_iff.mp member)
      obtain ⟨permuted, places⟩ := stably.places_eq otherStably (perm.filterMap _)
      exact ⟨_, otherResolved, permuted, places⟩
  · rintro before novena after failure rfl isolated refused grave
    exact resolve_eq_error isolated refused grave

def christmas : Novena where
  id := .named "christmas"
  title := .str "Christmas"
  feast := .rule (.fixed (.of 12) (.of 25))

def peterAndPaul : Novena where
  id := .named "peter_and_paul"
  title := .str "Peter and Paul"
  feast := .rule (.fixed (.of 6) (.of 29))

def unread : Novena where
  id := .named "unread"
  title := .str "Unread"
  feast := .rule (.raw (.str "?"))

def farOff : Novena where
  id := .named "far_off"
  title := .str "Far off"
  feast := .rule (.relative (.named "easter") 4000000 none .onOrAfter)

def easterOnly : Anchors := .plain [("easter", (by decide : Held 739361).date)]

theorem resolve_isolates_unread :
    (∃ batch, resolve [christmas, unread, peterAndPaul] (.int 2025) easterOnly = .ok batch ∧
      batch.instances.length + batch.failures.length = 3 ∧
      (∃ fault, batch.failures = [⟨unread.id, fault⟩]) ∧
      (∃ second, resolve [christmas, peterAndPaul] (.int 2025) easterOnly = .ok second ∧
        second.instances = batch.instances) ∧
      ∃ third, resolve [unread, peterAndPaul, christmas] (.int 2025) easterOnly = .ok third ∧
        third.instances.Perm batch.instances ∧
        third.instances.map NovenaInstance.place = batch.instances.map NovenaInstance.place) ∧
      ¬(Failure.date .beyondRange).IsFault ∧
      resolve [unread, farOff, christmas] (.int 2025) easterOnly = .error (.date .beyondRange) := by
  obtain ⟨winter, winterFound⟩ : ∃ window, christmas.resolve (.int 2025) easterOnly = .ok window :=
    ⟨_, rfl⟩
  obtain ⟨summer, summerFound⟩ :
      ∃ window, peterAndPaul.resolve (.int 2025) easterOnly = .ok window := ⟨_, rfl⟩
  obtain ⟨fault, refused⟩ :
      ∃ fault, unread.resolve (.int 2025) easterOnly = .error (.fault fault) := ⟨_, rfl⟩
  have escaped : farOff.resolve (.int 2025) easterOnly = .error (.date .beyondRange) := rfl
  have isolated : ∀ novena ∈ [christmas, unread, peterAndPaul],
      Isolated (.int 2025) easterOnly novena := by
    simp only [List.mem_cons, List.not_mem_nil, or_false, forall_eq_or_imp, forall_eq]
    exact ⟨isolated_of_ok winterFound, isolated_of_fault refused, isolated_of_ok summerFound⟩
  have first := resolve_isolates [christmas, unread, peterAndPaul] (.int 2025) easterOnly
    (by simp [christmas, unread, peterAndPaul])
  have other := resolve_isolates [unread, farOff, christmas] (.int 2025) easterOnly
    (by simp [christmas, unread, farOff])
  obtain ⟨batch, found, -, -, faults, lengths, thinned, permuted⟩ := first.1 isolated
  refine ⟨⟨batch, found, lengths, ⟨fault, ?_⟩, ?_, ?_⟩, Failure.not_isFault_beyondRange, ?_⟩
  · rw [faults]
    simp [faultOf, winterFound, summerFound, refused]
  · refine thinned [christmas, peterAndPaul] (by simp [christmas, peterAndPaul]) ?_ ?_
    · exact fun novena member => isolated novena (by simp at member ⊢; tauto)
    · simp [resolves, windowOf, winterFound, summerFound, refused, Except.toOption]
  · exact permuted _ (by decide)
  · exact other.2 [unread] farOff [christmas] _ rfl
      (by simpa using isolated_of_fault refused) escaped Failure.not_isFault_beyondRange

end NovenaBatch

end FeastCalendar
