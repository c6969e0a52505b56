import Mathlib.Data.Int.Interval
import Mathlib.Data.Set.Card
import FeastCalendar.Proofs.Civil.Calendar
import FeastCalendar.Proofs.Novena.Batch
import FeastCalendar.Proofs.Observance.Table

/-!
The views of a calendar of novenas. A window whose days are as many as it says holds each of its day
numbers on one date. The novenas under way on a date are the windows that hold it, and the maps of
starts and feasts are the windows of the first and of the last day number.
-/

namespace FeastCalendar
open Civil (Date)

namespace NovenaInstance

structure Spans (window : NovenaInstance) : Prop where
  positive : 1 ≤ window.duration
  span : window.start.daysTo window.feast + 1 = window.duration

theorem spans_of_resolve {novena : Novena} {year : Json} {anchors : Anchors}
    {window : NovenaInstance} (found : novena.resolve year anchors = .ok window) :
    window.Spans := by
  obtain ⟨duration, feast, start, hint, checked, dated, rfl⟩ := Novena.resolve_eq_ok.mp found
  have positive := (Novena.checkedDuration_eq_ok.mp checked).2.1
  have moved := (Novena.dates_eq_ok.mp dated).2.1
  exact ⟨positive, (Novena.window_agrees positive moved).2⟩

variable {window : NovenaInstance} {date : Date}

theorem contains_iff : window.contains date = true ↔ window.start ≤ date ∧ date ≤ window.feast := by
  rw [contains, Bool.and_eq_true, decide_eq_true_eq, decide_eq_true_eq]

theorem dayNumber?_eq_some_iff {number : Int} :
    window.dayNumber? date = some number ↔
      (window.start ≤ date ∧ date ≤ window.feast) ∧ window.start.daysTo date + 1 = number := by
  unfold dayNumber?
  split
  next holds => simp [contains_iff.mp holds]
  next outside => simp [mt contains_iff.mpr outside]

namespace Spans

theorem number_bounds {number : Int} (spans : window.Spans)
    (numbered : window.dayNumber? date = some number) : 1 ≤ number ∧ number ≤ window.duration := by
  obtain ⟨⟨begun, notEnded⟩, count⟩ := dayNumber?_eq_some_iff.mp numbered
  have span := spans.span
  rw [Date.le_iff] at begun notEnded
  rw [Date.daysTo] at span count
  omega

theorem dayNumber?_eq_one_iff (spans : window.Spans) :
    window.dayNumber? date = some 1 ↔ window.start = date := by
  have positive := spans.positive
  have span := spans.span
  rw [dayNumber?_eq_some_iff, Date.le_iff, Date.le_iff, Date.ext_iff]
  rw [Date.daysTo] at *
  omega

theorem dayNumber?_eq_duration_iff (spans : window.Spans) :
    window.dayNumber? date = some window.duration ↔ window.feast = date := by
  have positive := spans.positive
  have span := spans.span
  rw [dayNumber?_eq_some_iff, Date.le_iff, Date.le_iff, Date.ext_iff]
  rw [Date.daysTo] at *
  omega

theorem existsUnique_date {number : Int} (spans : window.Spans)
    (bounds : 1 ≤ number ∧ number ≤ window.duration) :
    ∃! date, window.dayNumber? date = some number := by
  have span := spans.span
  have low := window.start.one_le
  have high := window.feast.le_last
  rw [Date.daysTo] at span
  obtain ⟨date, -, counted⟩ :=
    Date.exists_ofNumber? (n := window.start.number + (number - 1)) ⟨by omega, by omega⟩
  refine ⟨date, ?_, ?_⟩
  · simp only [dayNumber?_eq_some_iff, Date.le_iff, Date.daysTo]
    omega
  · intro other numbered
    simp only [dayNumber?_eq_some_iff, Date.daysTo] at numbered
    rw [Date.ext_iff]
    omega

theorem ncard_contains (spans : window.Spans) :
    ({date | window.contains date = true}.ncard : Int) = window.duration := by
  have span := spans.span
  have positive := spans.positive
  have low := window.start.one_le
  have high := window.feast.le_last
  rw [Date.daysTo] at span
  have numbers : Date.number '' {date | window.contains date = true} =
      Finset.Icc window.start.number window.feast.number := by
    ext number
    simp only [Set.mem_image, Set.mem_ofPred_eq, contains_iff, Date.le_iff, Finset.coe_Icc,
      Set.mem_Icc]
    constructor
    · rintro ⟨date, holds, rfl⟩
      exact holds
    · intro between
      obtain ⟨date, -, rfl⟩ := Date.exists_ofNumber? (n := number) ⟨by omega, by omega⟩
      exact ⟨date, between, rfl⟩
  have injective : Function.Injective Date.number := fun _ _ => Date.eq_of_number
  rw [← Set.ncard_image_of_injective _ injective, numbers, Set.ncard_coe_finset, Int.card_Icc]
  omega

end Spans

def endPlace (window : NovenaInstance) : Date × Text := (window.feast, window.titleText)

theorem comparableByFeast_of_titled {left right : NovenaInstance} (leftTitled : left.Titled)
    (rightTitled : right.Titled) : left.comparableByFeast right = true := by
  obtain ⟨leftText, leftTitle⟩ := leftTitled
  obtain ⟨rightText, rightTitle⟩ := rightTitled
  simp [comparableByFeast, leftTitle, rightTitle, Json.compare?]

theorem endsNoLater_of_titled {left right : NovenaInstance} (leftTitled : left.Titled)
    (rightTitled : right.Titled) :
    left.endsNoLater right = decide (NoLater left.endPlace right.endPlace) := by
  obtain ⟨leftText, leftTitle⟩ := leftTitled
  obtain ⟨rightText, rightTitle⟩ := rightTitled
  simp only [endsNoLater, NoLater, endPlace, titleText, leftTitle, rightTitle, compare?_ne_gt,
    Bool.decide_or, Bool.decide_and]

end NovenaInstance

namespace NovenaCalendar

variable {instances : List NovenaInstance} {date : Date}

def underWay (instances : List NovenaInstance) (date : Date) : List (NovenaInstance × Int) :=
  (instances.filter fun window => decide (window.start ≤ date ∧ date ≤ window.feast)).map
    fun window => (window, window.start.daysTo date + 1)

theorem filterMap_dayNumber? (instances : List NovenaInstance) (date : Date) :
    instances.filterMap (fun window => (window.dayNumber? date).map (window, ·)) =
      underWay instances date := by
  induction instances with
  | nil => rfl
  | cons window rest ih =>
    rw [List.filterMap_cons, ih, underWay, underWay]
    by_cases holds : window.start ≤ date ∧ date ≤ window.feast
    · simp [NovenaInstance.dayNumber?, NovenaInstance.contains, holds]
    · have outside : ¬window.contains date = true := mt NovenaInstance.contains_iff.mp holds
      simp [NovenaInstance.dayNumber?, outside, holds]

theorem mem_underWay {window : NovenaInstance} {number : Int} :
    (window, number) ∈ underWay instances date ↔
      window ∈ instances ∧ window.dayNumber? date = some number := by
  rw [← filterMap_dayNumber?, List.mem_filterMap]
  simp only [Option.map_eq_some_iff, Prod.mk.injEq]
  constructor
  · rintro ⟨other, member, found, numbered, rfl, rfl⟩
    exact ⟨member, numbered⟩
  · rintro ⟨member, numbered⟩
    exact ⟨window, member, number, numbered, rfl, rfl⟩

theorem count_underWay (instances : List NovenaInstance) (date : Date) (window : NovenaInstance)
    (number : Int) :
    (underWay instances date).count (window, number) =
      if window.dayNumber? date = some number then instances.count window else 0 := by
  by_cases numbered : window.dayNumber? date = some number
  · obtain ⟨holds, rfl⟩ := NovenaInstance.dayNumber?_eq_some_iff.mp numbered
    have injective : Function.Injective fun window : NovenaInstance =>
        (window, window.start.daysTo date + 1) := fun _ _ same => (Prod.mk.inj same).1
    rw [if_pos numbered, underWay, List.count_map_of_injective _ _ injective, List.count_filter]
    exact decide_eq_true holds
  · rw [if_neg numbered, List.count_eq_zero]
    exact fun member => numbered (mem_underWay.mp member).2

theorem active_eq_ok (titled : ∀ window ∈ instances, window.Titled) (date : Date) :
    ∃ running, active instances date = .ok running ∧
      NovenaInstance.StablyPlaced (fun entry => entry.1.endPlace) (underWay instances date)
        running := by
  have listed : ∀ entry ∈ underWay instances date, entry.1.Titled := fun entry member =>
    titled entry.1 (mem_underWay.mp member).1
  have comparables : ((underWay instances date).all fun left =>
      (underWay instances date).all fun right => left.1.comparableByFeast right.1) = true := by
    simp only [List.all_eq_true]
    intro left leftMember right rightMember
    exact NovenaInstance.comparableByFeast_of_titled (listed left leftMember)
      (listed right rightMember)
  have sorted := NovenaInstance.stablyPlaced_mergeSort
    (fun entry : NovenaInstance × Int => entry.1.endPlace) (underWay instances date)
  rw [← Sorting.mergeSort_congr fun left leftMember right rightMember =>
    NovenaInstance.endsNoLater_of_titled (listed left leftMember) (listed right rightMember)]
    at sorted
  refine ⟨_, ?_, sorted⟩
  simp only [active, filterMap_dayNumber?]
  rw [if_pos comparables]

theorem perm_of_active {running : List (NovenaInstance × Int)}
    (found : active instances date = .ok running) : running.Perm (underWay instances date) := by
  unfold active at found
  simp only [filterMap_dayNumber?] at found
  split at found
  · cases found
    exact List.mergeSort_perm _ _
  · cases found

def under (entries : List (Date × List NovenaInstance)) (iso : String) : List NovenaInstance :=
  ((entries.find? fun entry => entry.1.iso = iso).map Prod.snd).getD []

/-- Windows under their dates: each in one place, and those of one date in the order given. -/
structure Groups (dateOf : NovenaInstance → Date) (instances : List NovenaInstance)
    (entries : List (Date × List NovenaInstance)) : Prop where
  distinct : (entries.map fun entry => entry.1.iso).Nodup
  filled : ∀ entry ∈ entries, entry.2 ≠ []
  perm : (entries.flatMap Prod.snd).Perm instances
  inOrder : ∀ date : Date, under entries date.iso =
    instances.filter fun window => decide (dateOf window = date)

variable {dateOf : NovenaInstance → Date}

theorem map_fst_underDates (dateOf : NovenaInstance → Date) (instances : List NovenaInstance) :
    (underDates dateOf instances).map Prod.fst = (instances.map dateOf).eraseDups := by
  rw [underDates, List.map_map]
  exact List.map_id' _

theorem flatMap_filter_perm {keys : List Date} (distinct : keys.Nodup)
    (covered : ∀ window ∈ instances, dateOf window ∈ keys) :
    (keys.flatMap fun date => instances.filter fun window => decide (dateOf window = date)).Perm
      instances := by
  induction keys generalizing instances with
  | nil =>
    have empty : instances = [] :=
      List.eq_nil_iff_forall_not_mem.mpr fun window member => by simpa using covered window member
    rw [empty]
    exact List.Perm.nil
  | cons key rest ih =>
    rw [List.nodup_cons] at distinct
    rw [List.flatMap_cons]
    have others : (rest.flatMap fun date =>
        instances.filter fun window => decide (dateOf window = date)) = rest.flatMap fun date =>
          (instances.filter fun window => !decide (dateOf window = key)).filter fun window =>
            decide (dateOf window = date) := by
      refine List.flatMap_congr fun date member => ?_
      rw [List.filter_filter]
      refine List.filter_congr fun window _ => ?_
      have apart : date ≠ key := fun same => distinct.1 (same ▸ member)
      by_cases here : dateOf window = date <;> simp [here, apart]
    have known : ∀ window ∈ instances.filter fun window => !decide (dateOf window = key),
        dateOf window ∈ rest := by
      intro window member
      obtain ⟨listed, apart⟩ := List.mem_filter.mp member
      have other : dateOf window ≠ key := by simpa using apart
      exact (List.mem_cons.mp (covered window listed)).resolve_left other
    rw [others]
    exact (List.Perm.append_left _ (ih distinct.2 known)).trans (List.filter_append_perm _ _)

theorem under_underDates (dateOf : NovenaInstance → Date) (instances : List NovenaInstance)
    (date : Date) : under (underDates dateOf instances) date.iso =
      instances.filter fun window => decide (dateOf window = date) := by
  rw [under, underDates, List.find?_map]
  simp only [Function.comp_def, Date.iso_inj, Option.map_map]
  by_cases mentioned : date ∈ instances.map dateOf
  · have present := List.find?_isSome (p := fun other => decide (other = date)).mpr
      ⟨date, List.mem_eraseDups.mpr mentioned, decide_eq_true rfl⟩
    obtain ⟨other, found⟩ := Option.isSome_iff_exists.mp present
    have same := List.find?_some found
    rw [decide_eq_true_eq] at same
    rw [found, same]
    rfl
  · have absent : (instances.map dateOf).eraseDups.find? (fun other => other = date) = none := by
      simpa [List.mem_eraseDups] using mentioned
    have nothing : instances.filter (fun window => decide (dateOf window = date)) = [] := by
      simpa using mentioned
    rw [absent, nothing]
    rfl

theorem count_under {window : NovenaInstance} {number : Int}
    (taken : window ∈ instances → (window.dayNumber? date = some number ↔ dateOf window = date)) :
    (under (underDates dateOf instances) date.iso).count window =
      (underWay instances date).count (window, number) := by
  rw [under_underDates, count_underWay]
  by_cases listed : window ∈ instances
  · by_cases here : dateOf window = date
    · rw [if_pos ((taken listed).mpr here), List.count_filter]
      exact decide_eq_true here
    · rw [if_neg (mt (taken listed).mp here), List.count_eq_zero]
      exact fun member => here (of_decide_eq_true (List.mem_filter.mp member).2)
  · have never : instances.count window = 0 := List.count_eq_zero.mpr listed
    rw [never, ite_self, List.count_eq_zero]
    exact fun member => listed (List.mem_filter.mp member).1

theorem groups_underDates (dateOf : NovenaInstance → Date) (instances : List NovenaInstance) :
    Groups dateOf instances (underDates dateOf instances) := by
  have distinct := ObservanceTable.nodup_eraseDups (instances.map dateOf)
  refine ⟨?_, ?_, ?_, under_underDates dateOf instances⟩
  · have keys := congrArg (List.map Date.iso) (map_fst_underDates dateOf instances)
    rw [List.map_map] at keys
    rw [show (fun entry : Date × List NovenaInstance => entry.1.iso) = Date.iso ∘ Prod.fst from rfl,
      keys]
    exact distinct.map fun _ _ => Date.iso_inj.mp
  · intro entry member
    obtain ⟨date, key, rfl⟩ := List.mem_map.mp member
    obtain ⟨window, listed, same⟩ := List.mem_map.mp (List.mem_eraseDups.mp key)
    exact List.ne_nil_of_mem (List.mem_filter.mpr ⟨listed, decide_eq_true same⟩)
  · rw [underDates, List.flatMap_map]
    apply flatMap_filter_perm distinct
    exact fun window member => List.mem_eraseDups.mpr (List.mem_map_of_mem member)

/-- The views of a list of windows agree: under way on a date are the windows that hold it, as often
as they are listed, each with its number of the day, by feast and title; each window takes each of
its numbers on one date; and under a date stand the windows that take on it their first number, or
their last. -/
theorem views_agree {instances : List NovenaInstance}
    (spans : ∀ window ∈ instances, window.Spans) :
    (∀ (date : Date) running, active instances date = .ok running →
      running.Perm (underWay instances date) ∧
      (∀ entry ∈ running, 1 ≤ entry.2 ∧ entry.2 ≤ entry.1.duration) ∧
      ∀ window,
        (under (ofInstances instances).starts date.iso).count window = running.count (window, 1) ∧
        (under (ofInstances instances).feasts date.iso).count window =
          running.count (window, window.duration)) ∧
    ((∀ window ∈ instances, window.Titled) → ∀ date : Date, ∃ running,
      active instances date = .ok running ∧
      NovenaInstance.StablyPlaced (fun entry => entry.1.endPlace) (underWay instances date)
        running) ∧
    (∀ window ∈ instances,
      ({date | ∃ number, (window, number) ∈ underWay instances date}.ncard : Int) =
        window.duration ∧
      ∀ number, 1 ≤ number ∧ number ≤ window.duration →
        ∃! date, (window, number) ∈ underWay instances date) ∧
    Groups (·.start) instances (ofInstances instances).starts ∧
    Groups (·.feast) instances (ofInstances instances).feasts := by
  refine ⟨?_, fun titled date => active_eq_ok titled date, ?_, groups_underDates _ _,
    groups_underDates _ _⟩
  · intro date running found
    have perm := perm_of_active found
    refine ⟨perm, ?_, ?_⟩
    · rintro ⟨window, number⟩ member
      obtain ⟨listed, numbered⟩ := mem_underWay.mp (perm.mem_iff.mp member)
      exact (spans window listed).number_bounds numbered
    · intro window
      rw [perm.count_eq, perm.count_eq]
      exact ⟨count_under fun listed => (spans window listed).dayNumber?_eq_one_iff,
        count_under fun listed => (spans window listed).dayNumber?_eq_duration_iff⟩
  · intro window listed
    simp only [mem_underWay, listed, true_and]
    refine ⟨?_, fun number bounds => (spans window listed).existsUnique_date bounds⟩
    have held : {date | ∃ number, window.dayNumber? date = some number} =
        {date | window.contains date = true} := by
      ext date
      simp [NovenaInstance.dayNumber?_eq_some_iff, NovenaInstance.contains_iff]
    rw [held]
    exact (spans window listed).ncard_contains

def nineDays : NovenaInstance where
  id := "nine_days"
  title := .str "Nine days"
  start := ⟨739237, by decide, by decide⟩
  feast := ⟨739245, by decide, by decide⟩
  duration := 9

def threeDays : NovenaInstance where
  id := "three_days"
  title := .str "Three days"
  start := ⟨739243, by decide, by decide⟩
  feast := ⟨739245, by decide, by decide⟩
  duration := 3

theorem views_agree_nineDays :
    (∀ window ∈ [nineDays, threeDays, nineDays], window.Spans) ∧
    (∀ window ∈ [nineDays, threeDays, nineDays], window.Titled) ∧
    (∃ running, active [nineDays, threeDays, nineDays] nineDays.feast = .ok running ∧
      running.length = 3 ∧ running.count (nineDays, 9) = 2 ∧
      (under (ofInstances [nineDays, threeDays, nineDays]).feasts nineDays.feast.iso).count
        nineDays = running.count (nineDays, 9)) ∧
    ∃! date, (threeDays, 2) ∈ underWay [nineDays, threeDays, nineDays] date := by
  have spans : ∀ window ∈ [nineDays, threeDays, nineDays], window.Spans := by
    have nine : nineDays.Spans := ⟨by decide, by decide⟩
    have three : threeDays.Spans := ⟨by decide, by decide⟩
    simp [nine, three]
  have titled : ∀ window ∈ [nineDays, threeDays, nineDays], window.Titled := by
    simp [NovenaInstance.Titled, nineDays, threeDays]
  obtain ⟨views, sorted, numbers, -⟩ := views_agree spans
  obtain ⟨running, found, -⟩ := sorted titled nineDays.feast
  obtain ⟨perm, -, counts⟩ := views nineDays.feast running found
  refine ⟨spans, titled, ⟨running, found, ?_, ?_, (counts nineDays).2⟩, ?_⟩
  · rw [perm.length_eq]
    decide
  · rw [perm.count_eq]
    decide
  · exact (numbers threeDays (by simp)).2 2 (by decide)

end NovenaCalendar

end FeastCalendar
