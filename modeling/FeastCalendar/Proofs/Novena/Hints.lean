import FeastCalendar.Proofs.Novena.Bundled
import FeastCalendar.Proofs.Novena.Calendar

/-!
The start hints of the bundled novenas. Feast and start rule are days that every year has, with no
leap day between them, or they are counted from one of two Sundays; so the days from the hint to the
start of the window are the same in every year. They are none but for one novena.
-/

namespace FeastCalendar
open Civil (Date monthLength yearBefore commonSpan marchYearOf)
open Definitions (easterCycle)

inductive BaseSunday where
  | easter
  | christKing
deriving DecidableEq

namespace BaseSunday

/-- Where each moving anchor lies, in days from one of the Sundays. -/
def anchorPlaces : Keyed Text (BaseSunday × Int) :=
  ("christ_king", christKing, 0) ::
    easterCycle.map fun entry => (Text.ofString entry.1, easter, entry.2)

def placeOf? (feast : BaseSunday × Int) : Rule → Option (BaseSunday × Int)
  | .anchor key => Keyed.find? anchorPlaces key.val
  | .relative key offset none _ =>
    (Keyed.find? anchorPlaces key.val).map fun place => (place.1, place.2 + offset)
  | .nthWeekdayAfter key weekday count =>
    (Keyed.find? anchorPlaces key.val).map fun place =>
      (place.1, place.2 + 1 + (weekday.val - place.2 - 1) % 7 + 7 * (count.val - 1))
  | .beforeFeast days none => some (feast.1, feast.2 - (days.val - 1))
  | _ => none

variable {year : Int} {table : AnchorTable} {sundays : BaseSunday → Int} {date : Date}

structure Reckons (table : AnchorTable) (sundays : BaseSunday → Int) : Prop where
  sunday : ∀ base, sundays base % 7 = 0
  anchored : ∀ key place, Keyed.find? anchorPlaces key = some place →
    ∃ date, Anchors.find? table key = some date ∧ date.number = sundays place.1 + place.2

theorem exists_reckons (held : 1 ≤ year ∧ year ≤ 9999)
    (built : AnchorTable.builtin (.int year) = .ok table) : ∃ sundays, Reckons table sundays := by
  obtain ⟨easter, _, advent, king, sunday, cycle, -, -, ⟨-, -, -, adventSunday⟩, kingFound,
    kingNumber⟩ := AnchorTable.dates_of_builtin held built
  have easterSunday := (Easter.sunday_number held sunday).2.2
  refine ⟨fun | .easter => easter.number | .christKing => king.number, ?_, ?_⟩
  · intro base
    cases base with
    | easter => exact easterSunday
    | christKing =>
      simp only
      omega
  · intro key place placed
    rcases List.mem_cons.mp (Keyed.mem_of_find? placed) with same | inCycle
    · cases same
      exact ⟨king, kingFound, (Int.add_zero _).symm⟩
    · obtain ⟨entry, listed, same⟩ := List.mem_map.mp inCycle
      cases same
      exact cycle entry listed

namespace Reckons

theorem number_of_anchor (reckons : Reckons table sundays) {key : Text} {place : BaseSunday × Int}
    (placed : Keyed.find? anchorPlaces key = some place)
    (found : Anchors.getForRule table key (.int year) = .ok date) :
    date.number = sundays place.1 + place.2 := by
  obtain ⟨own, ownFound, number⟩ := reckons.anchored key place placed
  rw [Anchors.getForRule_eq_ok, ownFound] at found
  rw [← Option.some.inj found]
  exact number

theorem number_of_rule (reckons : Reckons table sundays) {feast : Key}
    {feastPlace place : BaseSunday × Int}
    (feastPlaced : Keyed.find? anchorPlaces feast.val = some feastPlace) {rule : Rule}
    (placed : placeOf? feastPlace rule = some place)
    (found : rule.dateIn (.int year) table (some (.rule (.anchor feast))) = .ok date) :
    date.number = sundays place.1 + place.2 := by
  match rule with
  | .anchor key =>
    have got : Anchors.getForRule table key.val (.int year) = .ok date := found
    exact reckons.number_of_anchor placed got
  | .relative key offset none policy =>
    obtain ⟨own, ownPlaced, rfl⟩ := Option.map_eq_some_iff.mp placed
    obtain ⟨base, got, counted⟩ := Attempt.bind_eq_ok.mp found
    obtain ⟨moved, inside, same⟩ := Attempt.bind_eq_ok.mp counted
    have number := reckons.number_of_anchor ownPlaced got
    have movedNumber := Date.add?_eq_some_iff.mp (inRange_eq_ok.mp inside)
    rw [← Attempt.pure_eq_ok.mp same]
    simp only
    omega
  | .nthWeekdayAfter key weekday count =>
    obtain ⟨own, ownPlaced, rfl⟩ := Option.map_eq_some_iff.mp placed
    obtain ⟨base, got, counted⟩ := Attempt.bind_eq_ok.mp found
    have number := reckons.number_of_anchor ownPlaced got
    have sunday := reckons.sunday own.1
    rw [inRange_eq_ok, Date.nthWeekdayAfter?_eq weekday.property count.property] at counted
    have movedNumber := Date.number_of_ofNumber? counted
    simp only
    omega
  | .beforeFeast days none =>
    cases placed
    obtain ⟨own, borrowed, counted⟩ := Attempt.bind_eq_ok.mp found
    cases borrowed
    obtain ⟨base, got, inside⟩ := Attempt.bind_eq_ok.mp counted
    have number := reckons.number_of_anchor feastPlaced got
    have movedNumber := Date.add?_eq_some_iff.mp (inRange_eq_ok.mp inside)
    simp only
    omega

end Reckons

end BaseSunday

namespace Novena

variable {novena : Novena} {year : Int} {table : AnchorTable} {window : NovenaInstance}

/-- The days from the start rule to the feast, where they are the same in every year. -/
def hintSpan? (novena : Novena) : Option Int :=
  match novena.feast, novena.start with
  | .rule (.fixed feastMonth feastDay), some (.rule (.fixed month day)) =>
    if marchYearOf 0 feastMonth.val =
        marchYearOf (yearBefore month.val day.val feastMonth.val feastDay.val 0) month.val then
      some (commonSpan month.val day.val feastMonth.val feastDay.val)
    else none
  | .rule (.anchor key), some (.rule start) => do
    let feast ← Keyed.find? BaseSunday.anchorPlaces key.val
    let place ← BaseSunday.placeOf? feast start
    if place.1 = feast.1 then some (feast.2 - place.2) else none
  | _, _ => none

theorem daysTo_of_commonSpan {feastMonth month : Month} {feastDay day : MonthDay} {feast hint : Date}
    (feastCommon : feastDay.val ≤ monthLength 1 feastMonth.val)
    (common : day.val ≤ monthLength 1 month.val)
    (together : marchYearOf 0 feastMonth.val =
      marchYearOf (yearBefore month.val day.val feastMonth.val feastDay.val 0) month.val)
    (feastOn : Date.ofYmd year feastMonth.val feastDay.val = .ok feast)
    (hintOn : Date.ofYmd (yearBefore month.val day.val feastMonth.val feastDay.val year) month.val
      day.val = .ok hint) :
    hint.daysTo feast = commonSpan month.val day.val feastMonth.val feastDay.val := by
  have same := Civil.marchYearOf_yearBefore month.val day.val feastMonth.val feastDay.val year
  have feastPlace := Date.marchYear_of_ofYmd feastOn feastCommon
  have hintPlace := Date.marchYear_of_ofYmd hintOn common
  have noLeapDay : ¬Date.LeapDayBetween hint feast := by
    rw [Date.leapDayBetween_iff (Date.not_isLeapDay_of_ofYmd feastOn feastCommon)
      (by rw [feastPlace, hintPlace]; simp only; omega), feastPlace, hintPlace]
    simp only
    omega
  exact (Civil.daysTo_of_ofYmd feastOn feastCommon hintOn common).2 noLeapDay

theorem Settled.hint_daysTo (settled : novena.Settled) (held : 1 ≤ year ∧ year ≤ 9999)
    (built : AnchorTable.builtin (.int year) = .ok table) {days : Int}
    (told : novena.hintSpan? = some days) (resolved : novena.resolve (.int year) table = .ok window) :
    ∃ hint, window.hint = some hint ∧ hint.daysTo window.feast = days := by
  obtain ⟨duration, feast, start, given, -, dated, rfl⟩ := resolve_eq_ok.mp resolved
  obtain ⟨found, -, hinted⟩ := dates_eq_ok.mp dated
  unfold hintSpan? at told
  cases settled with
  | @ofDays feastMonth month feastDay day onFeast starts feastCommon common =>
    simp only [onFeast, starts] at found hinted told
    obtain ⟨hint, reached, rfl⟩ := hinted
    obtain ⟨own, whole, feastOn⟩ := RuleSlot.resolve_fixed_eq_ok.mp found
    cases whole
    split at told
    next together =>
      have hintOn := (startHint_fixed_eq_ok rfl feastOn common).mp reached
      refine ⟨hint, rfl, ?_⟩
      rw [← Option.some.inj told]
      exact daysTo_of_commonSpan feastCommon common together feastOn hintOn
    next => cases told
  | @moving key start onFeast starts moves nearby =>
    obtain ⟨sundays, reckons⟩ := BaseSunday.exists_reckons held built
    simp only [onFeast, starts, Option.bind_eq_bind, Option.bind_eq_some_iff] at found hinted told
    obtain ⟨hint, reached, rfl⟩ := hinted
    obtain ⟨feastPlace, feastPlaced, place, placed, told⟩ := told
    split at told
    next together =>
      have hintFound : start.dateIn (.int year) table (some (.rule (.anchor key))) = .ok hint := by
        rw [startHint_of_nearby nearby, onFeast] at reached
        exact Attempt.mapError_eq_ok.mp reached
      have feastFound : Anchors.getForRule table key.val (.int year) = .ok feast :=
        Attempt.mapError_eq_ok.mp found
      -- Both are counted from one Sunday, wherever it falls in the year.
      have hintNumber := reckons.number_of_rule feastPlaced placed hintFound
      have feastNumber := reckons.number_of_anchor feastPlaced feastFound
      refine ⟨hint, rfl, ?_⟩
      rw [← Option.some.inj told, Date.daysTo, hintNumber, together]
      simp only [windowOn]
      omega
    next => cases told

end Novena

namespace NovenaBatch

variable {year : Json} {anchors : Anchors}

theorem forall₂_windowOf {novenas : List Novena}
    (resolves : ∀ novena ∈ novenas, ∃ window, novena.resolve year anchors = .ok window) :
    List.Forall₂ (fun novena window => novena.resolve year anchors = .ok window) novenas
        (novenas.filterMap (windowOf year anchors)) ∧
      novenas.filterMap (faultOf year anchors) = [] := by
  induction novenas with
  | nil => exact ⟨.nil, rfl⟩
  | cons novena rest ih =>
    obtain ⟨own, later⟩ := List.forall_mem_cons.mp resolves
    obtain ⟨window, resolved⟩ := own
    obtain ⟨windows, faultless⟩ := ih later
    have hasWindow : windowOf year anchors novena = some window := windowOf_eq_some_iff.mpr resolved
    have noFault : faultOf year anchors novena = none := by
      rw [faultOf, resolved]
    rw [List.filterMap_cons_some hasWindow, List.filterMap_cons_none noFault]
    exact ⟨.cons resolved windows, faultless⟩

end NovenaBatch

namespace NovenaIndex

variable {year : Int}

/-- The days from the hint to the start: one for Saints Peter and Paul, and none for the others. -/
def hintLag (novena : Novena) : Int :=
  if novena.id.val = Text.ofString "saints_peter_and_paul" then 1 else 0

theorem hintSpan?_bundled : ∀ novena ∈ bundled, ∀ duration,
    novena.effectiveDuration = .int duration →
      novena.hintSpan? = some (duration - 1 + hintLag novena) := by
  have all : ∀ novena ∈ bundled,
      (novena.effectiveDuration = .int 9 ∧ novena.hintSpan? = some (8 + hintLag novena)) ∨
        (novena.effectiveDuration = .int 10 ∧ novena.hintSpan? = some (9 + hintLag novena)) := by
    decide +kernel
  intro novena listed duration effective
  rcases all novena listed with ⟨nine, told⟩ | ⟨ten, told⟩
  · rw [nine] at effective
    cases effective
    exact told
  · rw [ten] at effective
    cases effective
    exact told

theorem exists_window (held : 2 ≤ year ∧ year ≤ 9999) {table : AnchorTable}
    (built : AnchorTable.builtin (.int year) = .ok table) {novena : Novena}
    (listed : novena ∈ bundled) : ∃ window, novena.resolve (.int year) table = .ok window := by
  obtain ⟨duration, lasts⟩ := exists_lastsAbout listed
  exact (settled_bundled listed).exists_resolve held built lasts

/-- A window has a hint, from which it starts a number of days later; only a hint that is the start
itself is accepted. -/
structure HintedBy (lag : Int) (window : NovenaInstance) : Prop where
  hinted : ∃ hint, window.hint = some hint ∧ hint.add? lag = some window.start
  accepted : window.hintAccepted = decide (lag = 0)

theorem hintedBy_lag (held : 2 ≤ year ∧ year ≤ 9999) {table : AnchorTable}
    (built : AnchorTable.builtin (.int year) = .ok table) {novena : Novena}
    (listed : novena ∈ bundled) {window : NovenaInstance}
    (resolved : novena.resolve (.int year) table = .ok window) :
    window.id = novena.id.val ∧ HintedBy (hintLag novena) window := by
  have span := (NovenaInstance.spans_of_resolve resolved).span
  obtain ⟨duration, feast, start, given, checked, -, rfl⟩ := Novena.resolve_eq_ok.mp resolved
  have effective := (Novena.checkedDuration_eq_ok.mp checked).1
  obtain ⟨hint, rfl, days⟩ := (settled_bundled listed).hint_daysTo ⟨by omega, held.2⟩ built
    (hintSpan?_bundled novena listed duration effective) resolved
  simp only [Novena.windowOn, Date.daysTo] at span days
  have lagging : start.number = hint.number + hintLag novena := by omega
  refine ⟨rfl, ⟨hint, rfl, Date.add?_eq_some_iff.mpr lagging⟩, ?_⟩
  simp only [Novena.windowOn, Option.some.injEq, Date.ext_iff, decide_eq_decide]
  omega

theorem hintDiscarded_of_hintedBy {lag : Int} {window : NovenaInstance}
    (hinted : HintedBy lag window) : window.hintDiscarded = decide (lag ≠ 0) := by
  obtain ⟨hint, present, -⟩ := hinted.hinted
  rw [NovenaInstance.hintDiscarded, present, hinted.accepted]
  simp

theorem map_filter_hintDiscarded {novenas : List Novena} {windows : List NovenaInstance}
    (alike : List.Forall₂ (fun novena window =>
      window.id = novena.id.val ∧ HintedBy (hintLag novena) window) novenas windows) :
    (novenas.filter fun novena => decide (hintLag novena ≠ 0)).map (·.id.val) =
      (windows.filter (·.hintDiscarded)).map (·.id) := by
  have kept := List.rel_filter (p := fun novena => decide (hintLag novena ≠ 0))
    (q := NovenaInstance.hintDiscarded)
    (fun novena window own => by simp only [hintDiscarded_of_hintedBy own.2]) alike
  rw [← List.forall₂_eq_eq_eq, List.forall₂_map_left_iff, List.forall₂_map_right_iff]
  exact kept.imp fun novena window own => own.1.symm

/-- In every year but the first the bundled index resolves without failures, to one window for each
definition, and each start rule has a date. It is the start of the window, except that the window of
Saints Peter and Paul starts a day later. -/
theorem hints_accepted (held : 2 ≤ year ∧ year ≤ 9999) :
    ∃ table batch windows, AnchorTable.builtin (.int year) = .ok table ∧
      NovenaBatch.resolve bundled (.int year) table = .ok batch ∧ batch.failures = [] ∧
      List.Forall₂ (fun novena window => novena.resolve (.int year) table = .ok window ∧
        window.id = novena.id.val) bundled windows ∧
      batch.instances.Perm windows ∧
      (∀ window ∈ batch.instances, ∃ hint, window.hint = some hint ∧
        (window.id ≠ Text.ofString "saints_peter_and_paul" →
          hint = window.start ∧ window.hintAccepted = true) ∧
        (window.id = Text.ofString "saints_peter_and_paul" →
          hint.add? 1 = some window.start ∧ window.hintAccepted = false)) ∧
      batch.discarded.map (·.id) = [Text.ofString "saints_peter_and_paul"] := by
  obtain ⟨table, built⟩ := @AnchorTable.exists_builtin year ⟨by omega, held.2⟩
  have resolves := fun novena (listed : novena ∈ bundled) => exists_window held built listed
  obtain ⟨windows, faultless⟩ := NovenaBatch.forall₂_windowOf resolves
  have hinted := ((List.forall₂_and_left _ _).mpr ⟨fun _ listed => listed, windows⟩).imp
    fun novena window own => hintedBy_lag held built own.1 own.2
  obtain ⟨sorted, -, stably, resolved⟩ := NovenaBatch.resolve_eq_ok titled_bundled
    fun novena listed => (resolves novena listed).elim fun _ => NovenaBatch.isolated_of_ok
  refine ⟨table, _, _, built, resolved, faultless, ?_, stably.perm, ?_, ?_⟩
  · exact windows.mp (fun _ _ own resolved => ⟨own, resolved.1⟩) hinted
  · intro window member
    obtain ⟨novena, listed, found⟩ := List.mem_filterMap.mp (stably.perm.mem_iff.mp member)
    obtain ⟨name, ⟨hint, present, moved⟩, accepted⟩ :=
      hintedBy_lag held built listed (NovenaBatch.windowOf_eq_some_iff.mp found)
    refine ⟨hint, present, ?_, ?_⟩
    · intro other
      have none : hintLag novena = 0 := if_neg (name ▸ other)
      rw [none] at moved accepted
      have number := Date.add?_eq_some_iff.mp moved
      exact ⟨Date.ext_iff.mpr (by omega), accepted⟩
    · intro own
      have one : hintLag novena = 1 := if_pos (name ▸ own)
      rw [one] at moved accepted
      exact ⟨moved, accepted⟩
  · have lagging : (bundled.filter fun novena => decide (hintLag novena ≠ 0)).map (·.id.val) =
        [Text.ofString "saints_peter_and_paul"] := by decide +kernel
    rw [map_filter_hintDiscarded hinted] at lagging
    have perm := (stably.perm.filter NovenaInstance.hintDiscarded).map fun window => window.id
    rw [lagging] at perm
    exact List.perm_singleton.mp perm

theorem hints_accepted_2025 : (2 : Int) ≤ 2025 ∧ ∃ table batch,
    AnchorTable.builtin (.int 2025) = .ok table ∧
    NovenaBatch.resolve bundled (.int 2025) table = .ok batch ∧ batch.failures = [] ∧
    batch.discarded.map (·.id) = [Text.ofString "saints_peter_and_paul"] := by
  obtain ⟨table, batch, _, built, resolved, faultless, -, -, -, discarded⟩ :=
    @hints_accepted 2025 (by decide)
  exact ⟨by decide, table, batch, built, resolved, faultless, discarded⟩

end NovenaIndex

end FeastCalendar
