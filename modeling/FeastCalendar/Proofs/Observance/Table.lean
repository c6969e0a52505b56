import Mathlib.Data.List.Dedup
import FeastCalendar.Attempt
import FeastCalendar.Observance.Year

/-!
What a table of observances holds. Its dates ascend, the observances of a date have distinct ids,
and the first emission of an id on a date is the one that stands.
-/

namespace FeastCalendar
open Civil (Date)

namespace Emission

variable {anchors : Anchors}

theorem make_eq_ok {date : Date} {id title : String} {rank : Rank} {color : Option String}
    {seasonMarker : Bool} {emission : Emission} :
    make anchors date id title rank color seasonMarker = .ok emission ↔
      ∃ season, Season.ofDate date anchors = .ok season ∧
        (date, ⟨id, title, rank, color <|> some season.color, some season, seasonMarker⟩) = emission := by
  simp only [make, Attempt.bind_eq_ok, Attempt.pure_eq_ok]

/-- A celebration is emitted on the date of its rule, as itself and in the season of the date. -/
structure Celebrates (year : Json) (anchors : Anchors) (celebration : Celebration)
    (emission : Emission) : Prop where
  date : celebration.rule.resolve year anchors none = .ok emission.1
  made : make anchors emission.1 celebration.id celebration.title celebration.rank celebration.color
    false = .ok emission

theorem Celebrates.id_eq {year : Json} {celebration : Celebration} {emission : Emission}
    (celebrates : Celebrates year anchors celebration emission) :
    emission.2.id = celebration.id := by
  obtain ⟨season, -, same⟩ := make_eq_ok.mp celebrates.made
  rw [← same]

theorem celebrates_iff {year : Json} {celebration : Celebration} {emission : Emission} :
    (do
      let date ← celebration.rule.resolve year anchors none
      make anchors date celebration.id celebration.title celebration.rank celebration.color false) =
        .ok emission ↔ Celebrates year anchors celebration emission := by
  rw [Attempt.bind_eq_ok]
  constructor
  · rintro ⟨date, dated, made⟩
    obtain ⟨season, -, rfl⟩ := make_eq_ok.mp made
    exact ⟨dated, made⟩
  · intro celebrates
    exact ⟨emission.1, celebrates.date, celebrates.made⟩

theorem mem_celebrations {year : Json} {catalogue : List Celebration} {named : List Emission}
    (found : celebrations year anchors catalogue = .ok named) {emission : Emission} :
    emission ∈ named ↔ ∃ celebration ∈ catalogue, Celebrates year anchors celebration emission := by
  simp only [Attempt.mem_of_mapM found, celebrates_iff]

theorem exists_mem_celebrations {year : Json} {catalogue : List Celebration} {named : List Emission}
    (found : celebrations year anchors catalogue = .ok named) {celebration : Celebration}
    (listed : celebration ∈ catalogue) :
    ∃ emission ∈ named, Celebrates year anchors celebration emission := by
  obtain ⟨emission, member, emits⟩ := Attempt.exists_mem_of_mapM found listed
  exact ⟨emission, member, celebrates_iff.mp emits⟩

theorem ofYear_eq_ok {year : Json} {catalogue : List Celebration} {emissions : List Emission} :
    ofYear year anchors catalogue = .ok emissions ↔
      ∃ markers seasonal ordinary named, seasonMarkers anchors = .ok markers ∧
        seasonalSundays anchors = .ok seasonal ∧ ordinaryTime anchors = .ok ordinary ∧
        celebrations year anchors catalogue = .ok named ∧
        markers ++ seasonal ++ ordinary ++ named = emissions := by
  simp only [ofYear, Attempt.bind_eq_ok, Attempt.pure_eq_ok]
  constructor
  · rintro ⟨markers, first, seasonal, second, ordinary, third, named, fourth, same⟩
    exact ⟨markers, seasonal, ordinary, named, first, second, third, fourth, same⟩
  · rintro ⟨markers, seasonal, ordinary, named, first, second, third, fourth, same⟩
    exact ⟨markers, first, seasonal, second, ordinary, third, named, fourth, same⟩

end Emission

namespace ObservanceTable

theorem nodup_eraseDups {α : Type} [BEq α] [LawfulBEq α] (values : List α) :
    values.eraseDups.Nodup := by
  match values with
  | [] => exact List.Pairwise.nil
  | value :: rest =>
    rw [List.eraseDups_cons, List.nodup_cons]
    constructor
    · simp [List.mem_eraseDups]
    · exact nodup_eraseDups (rest.filter fun other => !other == value)
termination_by values.length
decreasing_by exact Nat.lt_succ_of_le (List.length_filter_le _ _)

variable {observances : List Observance} {observance : Observance}

theorem mem_firstOfEachId :
    observance ∈ firstOfEachId observances ↔
      observances.find? (fun other => other.id = observance.id) = some observance := by
  induction observances with
  | nil => simp [firstOfEachId]
  | cons first rest ih =>
    rw [firstOfEachId, List.mem_cons, List.mem_filter, ih, List.find?_cons]
    by_cases same : first.id = observance.id
    · simp [same, eq_comm]
    · have different : observance.id ≠ first.id := fun alike => same alike.symm
      have apart : observance ≠ first := fun alike => different (congrArg Observance.id alike)
      simp [same, different, apart]

theorem nodup_ids_firstOfEachId (observances : List Observance) :
    ((firstOfEachId observances).map Observance.id).Nodup := by
  induction observances with
  | nil => exact List.Pairwise.nil
  | cons first rest ih =>
    rw [firstOfEachId, List.map_cons, List.nodup_cons]
    constructor
    · simp only [List.mem_map, List.mem_filter, decide_eq_true_eq, not_exists, not_and, and_imp]
      exact fun other _ different => different
    · exact ih.sublist (List.filter_sublist.map _)

theorem arrange_perm (observances : List Observance) :
    (arrange observances).Perm (firstOfEachId observances) :=
  List.mergeSort_perm _ _

def emittedOn (emissions : List Emission) (date : Date) : List Observance :=
  (emissions.filter fun emission => emission.1 = date).map Prod.snd

variable {emissions before after : List Emission} {date : Date}

theorem mem_emittedOn : observance ∈ emittedOn emissions date ↔ (date, observance) ∈ emissions := by
  simp [emittedOn]

theorem mem_dates : date ∈ dates emissions ↔ ∃ observance, (date, observance) ∈ emissions := by
  simp [dates, List.mem_eraseDups]

theorem pairwise_dates (emissions : List Emission) : (dates emissions).Pairwise (· < ·) := by
  have trans : ∀ first second third : Date, decide (first ≤ second) = true →
      decide (second ≤ third) = true → decide (first ≤ third) = true := by
    simp only [decide_eq_true_eq, Date.le_iff]
    omega
  have total : ∀ left right : Date, (decide (left ≤ right) || decide (right ≤ left)) = true := by
    simp only [Bool.or_eq_true, decide_eq_true_eq, Date.le_iff]
    omega
  have sorted := List.pairwise_mergeSort trans total (emissions.map Prod.fst).eraseDups
  have distinct : (dates emissions).Nodup :=
    (List.mergeSort_perm _ _).nodup_iff.mpr (nodup_eraseDups _)
  refine sorted.imp₂ (fun left right ordered different => ?_) distinct
  have apart : left.number ≠ right.number := fun same => different (Date.eq_of_number same)
  rw [decide_eq_true_eq, Date.le_iff] at ordered
  rw [Date.lt_iff]
  omega

theorem on_ofEmissions (emissions : List Emission) (date : Date) :
    (ofEmissions emissions).on date = arrange (emittedOn emissions date) := by
  by_cases emitted : date ∈ dates emissions
  · have found : (ofEmissions emissions).lookup date = some (arrange (emittedOn emissions date)) :=
      List.lookup_graph (fun date => arrange (emittedOn emissions date)) emitted
    rw [on, found]
    rfl
  · have nothing : emittedOn emissions date = [] := by
      rw [List.eq_nil_iff_forall_not_mem]
      exact fun observance member => emitted (mem_dates.mpr ⟨observance, mem_emittedOn.mp member⟩)
    have absent : (ofEmissions emissions).lookup date = none := by
      rw [List.lookup_eq_none_iff]
      simp only [ofEmissions, List.mem_map, forall_exists_index, and_imp, forall_apply_eq_imp_iff₂,
        bne_iff_ne]
      exact fun other member same => emitted (same ▸ member)
    rw [on, absent, nothing]
    simp [arrange, firstOfEachId]

/-- An observance stands on a date if it is the first of its id that is emitted on the date. -/
theorem mem_on :
    observance ∈ (ofEmissions emissions).on date ↔
      (emittedOn emissions date).find? (fun other => other.id = observance.id) = some observance := by
  rw [on_ofEmissions, (arrange_perm _).mem_iff, mem_firstOfEachId]

theorem nodup_ids_on (emissions : List Emission) (date : Date) :
    (((ofEmissions emissions).on date).map Observance.id).Nodup := by
  rw [on_ofEmissions]
  exact ((arrange_perm _).map _).nodup_iff.mpr (nodup_ids_firstOfEachId _)

theorem emitted_of_mem_on (stands : observance ∈ (ofEmissions emissions).on date) :
    (date, observance) ∈ emissions :=
  mem_emittedOn.mp (List.mem_of_find?_eq_some (mem_on.mp stands))

theorem exists_on_of_mem (emitted : (date, observance) ∈ emissions) :
    ∃ other ∈ (ofEmissions emissions).on date, other.id = observance.id := by
  have known : ((emittedOn emissions date).find? fun other => other.id = observance.id).isSome := by
    rw [List.find?_isSome]
    exact ⟨observance, mem_emittedOn.mpr emitted, by simp⟩
  obtain ⟨other, found⟩ := Option.isSome_iff_exists.mp known
  have same : other.id = observance.id := by simpa using List.find?_some found
  exact ⟨other, mem_on.mpr (by rw [same, found]), same⟩

theorem mem_on_of_first
    (first : ∀ earlier ∈ before, earlier.1 = date → earlier.2.id ≠ observance.id) :
    observance ∈ (ofEmissions (before ++ (date, observance) :: after)).on date := by
  rw [mem_on, List.find?_eq_some_iff_append]
  refine ⟨by simp, emittedOn before date, emittedOn after date, by simp [emittedOn], ?_⟩
  intro earlier member
  simpa using first _ (mem_emittedOn.mp member) rfl

def entries (table : ObservanceTable) : List Emission :=
  table.flatMap fun entry => entry.2.map fun observance => (entry.1, observance)

theorem mem_entries :
    (date, observance) ∈ (ofEmissions emissions).entries ↔
      observance ∈ (ofEmissions emissions).on date := by
  rw [on_ofEmissions]
  simp only [entries, ofEmissions, List.mem_flatMap, List.mem_map, exists_exists_and_eq_and,
    Prod.mk.injEq]
  constructor
  · rintro ⟨own, -, other, member, rfl, rfl⟩
    exact member
  · intro member
    have emitted := mem_emittedOn.mp (List.mem_of_find?_eq_some
      (mem_firstOfEachId.mp ((arrange_perm _).mem_iff.mp member)))
    exact ⟨date, mem_dates.mpr ⟨observance, emitted⟩, observance, member, rfl, rfl⟩

theorem pairwise_entries (emissions : List Emission) :
    (ofEmissions emissions).entries.Pairwise fun left right =>
      left.1 < right.1 ∨ left.1 = right.1 ∧ left.2.id ≠ right.2.id := by
  rw [entries, List.pairwise_flatMap]
  constructor
  · intro entry member
    obtain ⟨date, -, rfl⟩ := List.mem_map.mp member
    have distinct := nodup_ids_on emissions date
    rw [on_ofEmissions, List.Nodup, List.pairwise_map] at distinct
    rw [List.pairwise_map]
    exact distinct.imp fun different => Or.inr ⟨rfl, different⟩
  · rw [ofEmissions, List.pairwise_map]
    refine (pairwise_dates emissions).imp fun ordered => ?_
    simp only [List.mem_map, forall_exists_index, and_imp, forall_apply_eq_imp_iff₂]
    exact fun _ _ _ _ => Or.inl ordered

theorem nodup_entries (emissions : List Emission) : (ofEmissions emissions).entries.Nodup := by
  refine (pairwise_entries emissions).imp ?_
  rintro left right (before | ⟨-, different⟩) rfl
  · rw [Date.lt_iff] at before
    omega
  · exact different rfl

theorem build_eq_ok {year : Json} {anchors : Anchors} {catalogue : List Celebration}
    {table : ObservanceTable} :
    build year anchors catalogue = .ok table ↔
      ∃ emissions, Emission.ofYear year anchors catalogue = .ok emissions ∧
        ofEmissions emissions = table := by
  simp only [build, Attempt.bind_eq_ok, Attempt.pure_eq_ok]

end ObservanceTable

end FeastCalendar
