import Mathlib.Data.Set.Card
import FeastCalendar.Novena.Bundled
import FeastCalendar.Proofs.Anchor.Builtin
import FeastCalendar.Proofs.Novena.Batch
import FeastCalendar.Proofs.Novena.Span

/-!
The bundled novenas against the built-in anchors. Each lasts nine days or ten and has a window in
every year but the first. Its feast lies in that year and its start as well, except that two of them
start in the December before.
-/

namespace FeastCalendar
open Civil (Date dayNumber marchFirst monthLength)
open Definitions (easterCycle)

section Movable

variable {year : Int} {table : AnchorTable}

theorem AnchorTable.years_of_builtin (built : builtin (.int year) = .ok table) :
    1 ≤ year ∧ year ≤ 9999 := by
  obtain ⟨own, easter, -, same, sunday, -⟩ := buildWithin_eq_ok.mp built
  cases same
  unfold Easter.sunday at sunday
  split at sunday
  next held => exact held
  next => cases sunday

def IsMidYear (year day : Int) : Prop := marchFirst year - 26 ≤ day ∧ day ≤ marchFirst year + 270

def movable : List Text := "christ_king" :: easterCycle.map fun entry => Text.ofString entry.1

theorem AnchorTable.find?_movable (held : 1 ≤ year ∧ year ≤ 9999)
    (built : builtin (.int year) = .ok table) {key : Text} (listed : key ∈ movable) :
    ∃ date, Anchors.find? table key = some date ∧ IsMidYear year date.number := by
  obtain ⟨easter, _, advent, king, sunday, cycle, -, -, ⟨-, late, early, -⟩, kingFound,
    kingNumber⟩ := dates_of_builtin held built
  have bounds := Easter.sunday_number held sunday
  unfold IsMidYear
  rcases List.mem_cons.mp listed with rfl | inCycle
  · have november : dayNumber year 11 27 = marchFirst year + 245 + 27 - 1 := rfl
    exact ⟨king, kingFound, by omega, by omega⟩
  · obtain ⟨entry, member, rfl⟩ := List.mem_map.mp inCycle
    obtain ⟨date, found, number⟩ := cycle entry member
    have offset := easterCycle_bounds entry member
    exact ⟨date, found, by omega, by omega⟩

/-- Rules that count no further than ten days from an anchor that moves, or from the feast. -/
def countsNearby : Rule → Bool
  | .anchor key => movable.contains key.val
  | .relative key offset none _ => movable.contains key.val && decide (-9 ≤ offset ∧ offset ≤ 0)
  | .nthWeekdayAfter key _ count => movable.contains key.val && decide (count = .of 1)
  | .beforeFeast days none => decide (days.val ≤ 10)
  | _ => false

theorem exists_resolve_of_nearby (held : 1 ≤ year ∧ year ≤ 9999)
    (built : AnchorTable.builtin (.int year) = .ok table) {rule : Rule} {feastKey : Key}
    (nearby : countsNearby rule = true) (feastMoves : feastKey.val ∈ movable) :
    ∃ date, RuleSlot.resolve (.rule rule) (.int year) table (some (.rule (.anchor feastKey))) =
      .ok date := by
  have years := Civil.marchFirst_bounds held
  have reached : ∀ key : Key, key.val ∈ movable → ∃ date : Date,
      Anchors.getForRule table key.val (.int year) = .ok date ∧ IsMidYear year date.number := by
    intro key listed
    obtain ⟨date, found, inside⟩ := AnchorTable.find?_movable held built listed
    exact ⟨date, Anchors.getForRule_eq_ok.mpr found, inside⟩
  suffices dated : ∃ date, rule.dateIn (.int year) table (some (.rule (.anchor feastKey))) =
      .ok date by
    obtain ⟨date, found⟩ := dated
    exact ⟨date, Attempt.mapError_eq_ok.mpr found⟩
  match rule with
  | .anchor key =>
    obtain ⟨date, got, -⟩ := reached key (List.contains_iff_mem.mp nearby)
    exact ⟨date, got⟩
  | .relative key offset none policy =>
    obtain ⟨listed, offsets⟩ := Bool.and_eq_true_iff.mp nearby
    obtain ⟨date, got, low, high⟩ := reached key (List.contains_iff_mem.mp listed)
    have few := of_decide_eq_true offsets
    obtain ⟨moved, counted, -⟩ := date.exists_add? offset ⟨by omega, by omega⟩
    exact ⟨moved, Attempt.bind_eq_ok.mpr ⟨date, got,
      Attempt.bind_eq_ok.mpr ⟨moved, inRange_eq_ok.mpr counted, rfl⟩⟩⟩
  | .nthWeekdayAfter key weekday count =>
    obtain ⟨listed, once⟩ := Bool.and_eq_true_iff.mp nearby
    obtain ⟨date, got, low, high⟩ := reached key (List.contains_iff_mem.mp listed)
    cases of_decide_eq_true once
    obtain ⟨moved, counted, -⟩ := Date.exists_ofNumber?
      (n := date.number + 1 + (weekday.val - date.number - 1) % 7 + 7 * ((Count.of 1).val - 1))
      (by simp only [Count.of]; omega)
    refine ⟨moved, Attempt.bind_eq_ok.mpr ⟨date, got, inRange_eq_ok.mpr ?_⟩⟩
    rw [Date.nthWeekdayAfter?_eq weekday.property (by decide)]
    exact counted
  | .beforeFeast days none =>
    obtain ⟨date, got, low, high⟩ := reached feastKey feastMoves
    have few := of_decide_eq_true nearby
    have positive := days.property
    obtain ⟨moved, counted, -⟩ := date.exists_add? (-(days.val - 1)) ⟨by omega, by omega⟩
    exact ⟨moved, Attempt.bind_eq_ok.mpr ⟨feastKey, rfl,
      Attempt.bind_eq_ok.mpr ⟨date, got, inRange_eq_ok.mpr counted⟩⟩⟩

end Movable

namespace Novena

/-- A novena between two days that every year has, or between anchors that move. -/
inductive Settled (novena : Novena) : Prop where
  | ofDays {feastMonth month : Month} {feastDay day : MonthDay} :
      novena.feast = .rule (.fixed feastMonth feastDay) →
      novena.start = some (.rule (.fixed month day)) →
      feastDay.val ≤ monthLength 1 feastMonth.val → day.val ≤ monthLength 1 month.val →
      Settled novena
  | moving {key : Key} {start : Rule} :
      novena.feast = .rule (.anchor key) → novena.start = some (.rule start) →
      key.val ∈ movable → countsNearby start = true → Settled novena

def isSettled (novena : Novena) : Bool :=
  match novena.feast, novena.start with
  | .rule (.fixed feastMonth feastDay), some (.rule (.fixed month day)) =>
    decide (feastDay.val ≤ monthLength 1 feastMonth.val ∧ day.val ≤ monthLength 1 month.val)
  | .rule (.anchor key), some (.rule start) => movable.contains key.val && countsNearby start
  | _, _ => false

variable {novena : Novena} {year : Int} {table : AnchorTable}

theorem settled_of_isSettled (settled : novena.isSettled = true) : novena.Settled := by
  unfold isSettled at settled
  split at settled
  next onFeast starts =>
    obtain ⟨feastCommon, common⟩ := of_decide_eq_true settled
    exact .ofDays onFeast starts feastCommon common
  next onFeast starts =>
    obtain ⟨moves, nearby⟩ := Bool.and_eq_true_iff.mp settled
    exact .moving onFeast starts (List.contains_iff_mem.mp moves) nearby
  next => cases settled

def FeastsOn (novena : Novena) (year day : Int) : Prop :=
  match novena.feast with
  | .rule (.fixed month monthDay) => day = dayNumber year month.val monthDay.val
  | _ => IsMidYear year day

theorem Settled.exists_feast (settled : novena.Settled) (held : 1 ≤ year ∧ year ≤ 9999)
    (built : AnchorTable.builtin (.int year) = .ok table) :
    ∃ feast, novena.feast.resolve (.int year) table none = .ok feast ∧
      novena.FeastsOn year feast.number := by
  unfold FeastsOn
  cases settled with
  | @ofDays feastMonth _ feastDay _ onFeast _ feastCommon _ =>
    obtain ⟨feast, named, number⟩ := Date.exists_ofYmd_of_common held feastCommon
    rw [onFeast]
    exact ⟨feast, RuleSlot.resolve_fixed_eq_ok.mpr ⟨year, rfl, named⟩, number⟩
  | @moving key _ onFeast _ moves _ =>
    obtain ⟨feast, found, inside⟩ := AnchorTable.find?_movable held built moves
    have got : Anchors.getForRule table key.val (.int year) = .ok feast :=
      Anchors.getForRule_eq_ok.mpr found
    rw [onFeast]
    exact ⟨feast, Attempt.mapError_eq_ok.mpr got, inside⟩

theorem startHint_of_nearby {start : Rule} (nearby : countsNearby start = true) (given : Json)
    (anchors : Anchors) (feast : Date) :
    novena.startHint (.rule start) given anchors feast =
      RuleSlot.resolve (.rule start) given anchors (some novena.feast) := by
  unfold startHint
  cases start with
  | fixed => cases nearby
  | _ => exact bind_pure _

theorem Settled.exists_hint (settled : novena.Settled) (held : 2 ≤ year ∧ year ≤ 9999)
    (built : AnchorTable.builtin (.int year) = .ok table) {feast : Date}
    (found : novena.feast.resolve (.int year) table none = .ok feast) :
    ∃ slot hint, novena.start = some slot ∧
      novena.startHint slot (.int year) table feast = .ok hint := by
  cases settled with
  | @ofDays feastMonth month feastDay day onFeast starts feastCommon common =>
    rw [onFeast] at found
    obtain ⟨own, whole, feastOn⟩ := RuleSlot.resolve_fixed_eq_ok.mp found
    cases whole
    obtain ⟨hint, hintOn, -⟩ :=
      Date.exists_ofYmd_of_common (Civil.yearBefore_bounds held) common
    exact ⟨_, hint, starts, (startHint_fixed_eq_ok rfl feastOn common).mpr hintOn⟩
  | @moving key start onFeast starts moves nearby =>
    obtain ⟨hint, resolved⟩ := exists_resolve_of_nearby ⟨by omega, held.2⟩ built nearby moves
    refine ⟨_, hint, starts, ?_⟩
    rw [startHint_of_nearby nearby, onFeast, resolved]

theorem Settled.feast_bounds (settled : novena.Settled) {day : Int}
    (feasts : novena.FeastsOn year day) : dayNumber year 1 1 ≤ day ∧ day ≤ dayNumber year 12 31 := by
  unfold FeastsOn at feasts
  cases settled with
  | @ofDays month _ monthDay _ onFeast _ common _ =>
    have longer := Civil.monthLength_common_le year month.val
    rw [onFeast] at feasts
    simp only at feasts
    rw [feasts]
    exact Date.dayNumber_year_bounds month.property
      ⟨monthDay.property.1, Int.le_trans common longer⟩
  | moving onFeast _ _ _ =>
    have january := Civil.dayNumber_january year 1
    have december : dayNumber year 12 31 = marchFirst year + 275 + 31 - 1 := rfl
    rw [onFeast] at feasts
    unfold IsMidYear at feasts
    split at january <;> omega

def LastsAbout (novena : Novena) (duration : Int) : Prop :=
  novena.effectiveDuration = .int duration ∧ (duration = 9 ∨ duration = 10)

theorem Settled.of_resolve (settled : novena.Settled) (held : 1 ≤ year ∧ year ≤ 9999)
    (built : AnchorTable.builtin (.int year) = .ok table) {duration : Int}
    (lasts : novena.LastsAbout duration) {window : NovenaInstance}
    (resolved : novena.resolve (.int year) table = .ok window) :
    novena.FeastsOn year window.feast.number ∧
      window.start.number = window.feast.number - (duration - 1) := by
  obtain ⟨own, feast, start, hint, checked, dated, rfl⟩ := resolve_eq_ok.mp resolved
  have same := (checkedDuration_eq_ok.mp checked).1
  rw [lasts.1] at same
  cases same
  obtain ⟨feastFound, moved, -⟩ := dates_eq_ok.mp dated
  obtain ⟨other, otherFound, feasts⟩ := settled.exists_feast held built
  cases feastFound.symm.trans otherFound
  have number := Date.add?_eq_some_iff.mp moved
  exact ⟨feasts, by simp only [windowOn]; omega⟩

theorem Settled.exists_resolve (settled : novena.Settled) (held : 2 ≤ year ∧ year ≤ 9999)
    (built : AnchorTable.builtin (.int year) = .ok table) {duration : Int}
    (lasts : novena.LastsAbout duration) :
    ∃ window, novena.resolve (.int year) table = .ok window := by
  have own : 1 ≤ year ∧ year ≤ 9999 := ⟨by omega, held.2⟩
  have years := Civil.marchFirst_bounds own
  obtain ⟨feast, found, feasts⟩ := settled.exists_feast own built
  obtain ⟨slot, hint, starts, hinted⟩ := settled.exists_hint held built found
  obtain ⟨effective, few⟩ := lasts
  have bounds := settled.feast_bounds feasts
  have high := feast.le_last
  have second : 366 ≤ dayNumber year 1 1 := by
    have first : dayNumber year 1 1 = marchFirst (year - 1) + 306 + 1 - 1 := rfl
    unfold marchFirst at first
    omega
  obtain ⟨start, moved, -⟩ := feast.exists_add? (-(duration - 1)) ⟨by omega, by omega⟩
  have checked : novena.checkedDuration (.int year) = .ok duration := by
    apply checkedDuration_eq_ok.mpr
    exact ⟨effective, by omega, by unfold maxDuration; omega⟩
  have dated : novena.dates (.int year) table duration = .ok (feast, start, some hint) := by
    apply dates_eq_ok.mpr
    rw [starts]
    exact ⟨found, moved, hint, hinted, rfl⟩
  exact ⟨_, resolve_eq_ok.mpr ⟨duration, feast, start, some hint, checked, dated, rfl⟩⟩

def reachBack (novena : Novena) : Int :=
  match novena.feast, novena.effectiveDuration with
  | .rule (.fixed month day), .int duration => if month.val = 1 then duration - day.val else 0
  | _, _ => 0

theorem Settled.start_le_iff (settled : novena.Settled) {duration day : Int}
    {window : NovenaInstance} (lasts : novena.LastsAbout duration)
    (feasts : novena.FeastsOn year window.feast.number)
    (starts : window.start.number = window.feast.number - (duration - 1))
    (before : day < dayNumber year 1 1) :
    window.start.number ≤ day ↔ dayNumber year 1 1 - day ≤ novena.reachBack := by
  obtain ⟨effective, few⟩ := lasts
  unfold FeastsOn at feasts
  unfold reachBack
  cases settled with
  | @ofDays month _ monthDay _ onFeast _ common _ =>
    rw [onFeast] at feasts
    rw [onFeast, effective]
    simp only at feasts
    simp only
    -- Only from a feast in January do nine days reach into the year before.
    by_cases january : month.val = 1
    · rw [january, Civil.dayNumber_eq_first] at feasts
      rw [if_pos january]
      omega
    · have months := month.property
      have later : dayNumber year 1 31 < dayNumber year month.val monthDay.val :=
        Date.dayNumber_lt_of_month_lt (by omega) (by decide) (Int.le_refl 31) months.2
          monthDay.property.1
      rw [Civil.dayNumber_eq_first] at later
      rw [if_neg january]
      omega
  | @moving key _ onFeast _ _ _ =>
    have january := Civil.dayNumber_january year 1
    rw [onFeast] at feasts
    rw [onFeast]
    unfold IsMidYear at feasts
    simp only
    split at january <;> omega

end Novena

namespace NovenaIndex

variable {novena : Novena} {year : Int} {date : Date} {table : AnchorTable}

theorem settled_bundled (listed : novena ∈ bundled) : novena.Settled := by
  have all : ∀ novena ∈ bundled, novena.isSettled = true := by decide +kernel
  exact Novena.settled_of_isSettled (all novena listed)

theorem exists_lastsAbout (listed : novena ∈ bundled) : ∃ duration, novena.LastsAbout duration := by
  have all : ∀ novena ∈ bundled,
      novena.effectiveDuration = .int 9 ∨ novena.effectiveDuration = .int 10 := by decide +kernel
  rcases all novena listed with nine | ten
  · exact ⟨9, nine, Or.inl rfl⟩
  · exact ⟨10, ten, Or.inr rfl⟩

theorem titled_bundled : ∀ novena ∈ bundled, ∃ text, novena.title = .str text := by
  simp [bundled, entry]

theorem nodup_bundled : bundled.Nodup := by
  have ids : (bundled.map Novena.id).Nodup := by decide +kernel
  exact ids.of_map

theorem map_reachBack_bundled :
    bundled.map Novena.reachBack = [0, 0, 0, 0, 0, 0, 4, 0, 0, 9, 0, 0, 0, 0, 0, 0, 0, 0] := by
  decide +kernel

def RunsOn (novena : Novena) (year : Int) (date : Date) : Prop :=
  ∃ table window, AnchorTable.builtin (.int year) = .ok table ∧
    novena.resolve (.int year) table = .ok window ∧ window.start ≤ date ∧ date ≤ window.feast

def windowsOn (date : Date) : Set (Novena × Int) :=
  {pair | pair.1 ∈ bundled ∧ RunsOn pair.1 pair.2 date}

theorem RunsOn.years (listed : novena ∈ bundled) (runs : RunsOn novena year date) :
    year = date.year ∨ year = date.year + 1 := by
  obtain ⟨table, window, built, resolved, begun, unfinished⟩ := runs
  obtain ⟨duration, lasts⟩ := exists_lastsAbout listed
  have settled := settled_bundled listed
  obtain ⟨feasts, starts⟩ :=
    settled.of_resolve (AnchorTable.years_of_builtin built) built lasts resolved
  obtain ⟨low, high⟩ := settled.feast_bounds feasts
  have few := lasts.2
  have number := date.dayNumber_parts
  have january := Civil.dayNumber_january (year - 1) 1
  have december : dayNumber (year - 1) 12 31 = marchFirst (year - 1) + 275 + 31 - 1 := rfl
  have newYear : dayNumber year 1 1 = marchFirst (year - 1) + 306 + 1 - 1 := rfl
  rw [Date.le_iff] at begun unfinished
  -- The window ends in its own year and begins at most nine days before it.
  have notLater : ¬year < date.year := by
    intro later
    have after : dayNumber year 12 31 < dayNumber date.year date.month date.day :=
      Date.dayNumber_lt_of_year_lt later (by decide) (by decide) date.month_bounds date.day_bounds.1
    omega
  have notEarlier : ¬date.year < year - 1 := by
    intro earlier
    have before := Date.number_lt_newYear earlier
    split at january <;> omega
  omega

def runsIn (table : AnchorTable) (date : Date) (novena : Novena) : Bool :=
  (NovenaBatch.windowOf (.int date.year) table novena).any fun window => window.contains date

theorem runsOn_own_iff (built : AnchorTable.builtin (.int date.year) = .ok table) :
    RunsOn novena date.year date ↔ runsIn table date novena = true := by
  unfold RunsOn runsIn NovenaBatch.windowOf NovenaInstance.contains
  cases resolved : novena.resolve (.int date.year) table with
  | error failure => simp [built, resolved, Except.toOption]
  | ok window => simp [built, resolved, Except.toOption]

theorem runsOn_next_iff (years : date.year ≤ 9998) (listed : novena ∈ bundled) :
    RunsOn novena (date.year + 1) date ↔
      dayNumber (date.year + 1) 1 1 - date.number ≤ novena.reachBack := by
  have bounds := date.year_bounds
  have held : 2 ≤ date.year + 1 ∧ date.year + 1 ≤ 9999 := ⟨by omega, by omega⟩
  have own : 1 ≤ date.year + 1 ∧ date.year + 1 ≤ 9999 := ⟨by omega, held.2⟩
  obtain ⟨duration, lasts⟩ := exists_lastsAbout listed
  have settled := settled_bundled listed
  have before := Date.number_lt_newYear (Int.lt_succ date.year)
  constructor
  · rintro ⟨table, window, built, resolved, begun, -⟩
    obtain ⟨feasts, starts⟩ := settled.of_resolve own built lasts resolved
    exact (settled.start_le_iff lasts feasts starts before).mp begun
  · intro near
    obtain ⟨table, built⟩ := AnchorTable.exists_builtin own
    obtain ⟨window, resolved⟩ := settled.exists_resolve held built lasts
    obtain ⟨feasts, starts⟩ := settled.of_resolve own built lasts resolved
    refine ⟨table, window, built, resolved,
      (settled.start_le_iff lasts feasts starts before).mpr near, ?_⟩
    have inYear := settled.feast_bounds feasts
    rw [Date.le_iff]
    omega

def pairs (chosen : Novena → Bool) (year : Int) : List (Novena × Int) :=
  (bundled.filter chosen).map (·, year)

theorem mem_pairs {chosen : Novena → Bool} {own : Int} :
    (novena, year) ∈ pairs chosen own ↔ (novena ∈ bundled ∧ chosen novena = true) ∧ year = own := by
  simp only [pairs, List.mem_map, List.mem_filter, Prod.mk.injEq]
  constructor
  · rintro ⟨_, listed, rfl, rfl⟩
    exact ⟨listed, rfl⟩
  · rintro ⟨listed, rfl⟩
    exact ⟨novena, listed, rfl, rfl⟩

theorem nodup_pairs (chosen : Novena → Bool) (year : Int) : (pairs chosen year).Nodup :=
  (nodup_bundled.filter chosen).map (Prod.mk_left_injective year)

theorem length_pairs (chosen : Novena → Bool) (year : Int) :
    (pairs chosen year).length = bundled.countP chosen := by
  rw [pairs, List.length_map, List.countP_eq_length_filter]

def runsNext (date : Date) (novena : Novena) : Bool :=
  decide (dayNumber (date.year + 1) 1 1 - date.number ≤ novena.reachBack)

theorem windowsOn_eq (years : date.year ≤ 9998)
    (built : AnchorTable.builtin (.int date.year) = .ok table) :
    windowsOn date =
      ↑(pairs (runsIn table date) date.year ++ pairs (runsNext date) (date.year + 1)).toFinset := by
  ext ⟨novena, year⟩
  simp only [windowsOn, Set.mem_ofPred_eq, Finset.mem_coe, List.mem_toFinset, List.mem_append,
    mem_pairs, runsNext, decide_eq_true_eq]
  constructor
  · rintro ⟨listed, runs⟩
    rcases runs.years listed with rfl | rfl
    · exact Or.inl ⟨⟨listed, (runsOn_own_iff built).mp runs⟩, rfl⟩
    · exact Or.inr ⟨⟨listed, (runsOn_next_iff years listed).mp runs⟩, rfl⟩
  · rintro (⟨⟨listed, runs⟩, rfl⟩ | ⟨⟨listed, near⟩, rfl⟩)
    · exact ⟨listed, (runsOn_own_iff built).mpr runs⟩
    · exact ⟨listed, (runsOn_next_iff years listed).mpr near⟩

theorem finite_windowsOn (years : date.year ≤ 9998) : (windowsOn date).Finite := by
  obtain ⟨table, built⟩ := AnchorTable.exists_builtin date.year_bounds
  rw [windowsOn_eq years built]
  exact Finset.finite_toSet _

theorem ncard_windowsOn (years : date.year ≤ 9998)
    (built : AnchorTable.builtin (.int date.year) = .ok table) :
    (windowsOn date).ncard =
      bundled.countP (runsIn table date) + bundled.countP (runsNext date) := by
  have distinct : (pairs (runsIn table date) date.year ++
      pairs (runsNext date) (date.year + 1)).Nodup := by
    apply List.Nodup.append (nodup_pairs _ _) (nodup_pairs _ _)
    rintro ⟨novena, year⟩ own next
    have first := (mem_pairs.mp own).2
    have second := (mem_pairs.mp next).2
    omega
  calc (windowsOn date).ncard
      _ = (pairs (runsIn table date) date.year ++
            pairs (runsNext date) (date.year + 1)).toFinset.card := by
          rw [windowsOn_eq years built, Set.ncard_coe_finset]
      _ = (pairs (runsIn table date) date.year ++
            pairs (runsNext date) (date.year + 1)).length := List.toFinset_card_of_nodup distinct
      _ = bundled.countP (runsIn table date) + bundled.countP (runsNext date) := by
          rw [List.length_append, length_pairs, length_pairs]

theorem countP_reachBack {days : Int} (positive : 1 ≤ days) :
    bundled.countP (fun novena => decide (days ≤ novena.reachBack)) =
      if days ≤ 4 then 2 else if days ≤ 9 then 1 else 0 := by
  have mapped : bundled.countP (fun novena => decide (days ≤ novena.reachBack)) =
      (bundled.map Novena.reachBack).countP fun reach => decide (days ≤ reach) := by
    rw [List.countP_map]
    rfl
  have none : ¬days ≤ 0 := by omega
  rw [mapped, map_reachBack_bundled]
  simp only [List.countP_cons, List.countP_nil, none, decide_false, Bool.false_eq_true, if_false,
    decide_eq_true_eq]
  split_ifs <;> omega

/-- How many windows of the year after hold a day of a year: in the last days of December two,
before them one, and else none. -/
def reachingBack (month day : Int) : Nat :=
  if month = 12 then if 28 ≤ day then 2 else if 23 ≤ day then 1 else 0 else 0

theorem countP_runsNext (date : Date) :
    bundled.countP (runsNext date) = reachingBack date.month date.day := by
  have number := date.dayNumber_parts
  have months := date.month_bounds
  have days := date.day_bounds
  have newYear : dayNumber (date.year + 1) 1 1 = marchFirst (date.year + 1 - 1) + 306 + 1 - 1 := rfl
  have december : dayNumber date.year 12 1 = marchFirst date.year + 275 + 1 - 1 := rfl
  have back : date.year + 1 - 1 = date.year := by omega
  rw [back] at newYear
  have before := Date.number_lt_newYear (Int.lt_succ date.year)
  have left : 1 ≤ dayNumber (date.year + 1) 1 1 - date.number := Int.sub_pos_of_lt before
  have counted : bundled.countP (runsNext date) = _ := countP_reachBack left
  by_cases last : date.month = 12
  · have length : monthLength date.year 12 = 31 := rfl
    rw [last] at number days
    rw [Civil.dayNumber_eq_first] at number
    rw [counted, reachingBack, if_pos last]
    split_ifs <;> omega
  · have earlier : dayNumber date.year date.month date.day < dayNumber date.year 12 1 :=
      Date.dayNumber_lt_of_month_lt (by omega) months.1 days.2 (by decide) (by decide)
    rw [counted, reachingBack, if_neg last, if_neg (by omega), if_neg (by omega)]

end NovenaIndex

end FeastCalendar
