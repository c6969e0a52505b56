import FeastCalendar.Novena.Scrape
import FeastCalendar.Proofs.Anchor.Builtin
import FeastCalendar.Proofs.Civil.Anniversary
import FeastCalendar.Proofs.Novena.Window
import FeastCalendar.Proofs.Rule.Reach

/-!
Spans told by rules. The days from a start rule to a feast rule are told once, without a year. In a
year they are right if the start is counted from the feast itself, or if both are fixed days and no
leap day lies between them.
-/

namespace FeastCalendar
open Civil (Date monthLength yearBefore commonSpan)

theorem Civil.Date.exists_ofYmd_of_common {year : Int} (held : 1 ≤ year ∧ year ≤ 9999)
    {month : Month} {day : MonthDay} (common : day.val ≤ monthLength 1 month.val) :
    ∃ date, ofYmd year month.val day.val = .ok date ∧
      date.number = dayNumber year month.val day.val :=
  exists_ofYmd held month.property
    ⟨day.property.1, Int.le_trans common (monthLength_common_le year month.val)⟩

theorem RuleSlot.resolve_fixed_eq_ok {month : Month} {day : MonthDay} {given : Json}
    {anchors : Anchors} {feast : Option RuleSlot} {date : Date} :
    RuleSlot.resolve (.rule (.fixed month day)) given anchors feast = .ok date ↔
      ∃ year, given.whole? = some year ∧ Date.ofYmd year month.val day.val = .ok date := by
  rw [resolve, Attempt.mapError_eq_ok, dateIn, Rule.dateIn, Rule.fixedDate]
  cases given.whole? with
  | none => simp
  | some year =>
    simp only [Option.some.injEq, exists_eq_left']
    split
    next found => simp [found]
    next refused => simp [refused]
    next refused => simp [refused, Failure.invalid]

namespace Novena

variable {novena : Novena} {given : Json} {anchors : Anchors} {feast hint : Date}

theorem startHint_fixed_eq_ok_iff {month : Month} {day : MonthDay}
    {year feastMonth feastDay : Int} (whole : given.whole? = some year)
    (feastOn : Date.ofYmd year feastMonth feastDay = .ok feast) :
    novena.startHint (.rule (.fixed month day)) given anchors feast = .ok hint ↔
      (∃ hinted, Date.ofYmd year month.val day.val = .ok hinted) ∧
        Date.ofYmd (yearBefore month.val day.val feastMonth feastDay year) month.val day.val =
          .ok hint := by
  simp only [startHint, Attempt.bind_eq_ok, RuleSlot.resolve_fixed_eq_ok, whole, Option.some.injEq,
    exists_eq_left', Option.getD_some, ← exists_and_right]
  refine exists_congr fun hinted => and_congr_right fun hintedOn => ?_
  have order := Date.lt_iff_of_ofYmd feastOn hintedOn
  by_cases after : feast < hinted
  · rw [if_pos after, yearBefore, if_pos (order.mp after), RuleSlot.resolve_fixed_eq_ok]
    simp [Json.whole?]
  · rw [if_neg after, yearBefore, if_neg (mt order.mpr after), hintedOn, Attempt.pure_eq_ok]
    simp

theorem startHint_fixed_eq_ok {month : Month} {day : MonthDay} {year feastMonth feastDay : Int}
    (whole : given.whole? = some year) (feastOn : Date.ofYmd year feastMonth feastDay = .ok feast)
    (common : day.val ≤ monthLength 1 month.val) :
    novena.startHint (.rule (.fixed month day)) given anchors feast = .ok hint ↔
      Date.ofYmd (yearBefore month.val day.val feastMonth feastDay year) month.val day.val =
        .ok hint := by
  have years := feast.year_bounds
  rw [(Date.parts_of_ofYmd feastOn).1] at years
  obtain ⟨hinted, hintedOn, -⟩ := Date.exists_ofYmd_of_common years common
  rw [startHint_fixed_eq_ok_iff whole feastOn, and_iff_right ⟨hinted, hintedOn⟩]

theorem startHint_beforeFeast_eq_ok {days : Count} {key : Option Key} :
    novena.startHint (.rule (.beforeFeast days key)) given anchors feast = .ok hint ↔
      ∃ own date, Rule.borrowedKey key (some novena.feast) = .ok own ∧
        anchors.find? own.val = some date ∧ hint.daysTo date + 1 = days.val := by
  have counted : ∀ date : Date,
      date.add? (-(days.val - 1)) = some hint ↔ hint.daysTo date + 1 = days.val := by
    intro date
    rw [Date.add?_eq_some_iff, Date.daysTo]
    omega
  simp only [startHint, RuleSlot.resolve, RuleSlot.dateIn, Rule.dateIn, Attempt.bind_eq_ok,
    Attempt.mapError_eq_ok, Attempt.pure_eq_ok, exists_eq_right, inRange_eq_ok,
    Anchors.getForRule_eq_ok, counted]
  constructor
  · rintro ⟨own, borrowed, date, found, span⟩
    exact ⟨own, date, borrowed, found, span⟩
  · rintro ⟨own, date, borrowed, found, span⟩
    exact ⟨own, borrowed, date, found, span⟩

end Novena

namespace Scrape

variable {month feastMonth day feastDay : Int}

def measuringYear (month day feastMonth feastDay : Int) : Int :=
  if Civil.ComesAfter month day feastMonth feastDay then commonYear + 1 else commonYear

theorem yearBefore_measuringYear :
    yearBefore month day feastMonth feastDay (measuringYear month day feastMonth feastDay) =
      commonYear := by
  unfold yearBefore measuringYear
  split <;> omega

theorem measuringYear_bounds :
    2025 ≤ measuringYear month day feastMonth feastDay ∧
      measuringYear month day feastMonth feastDay ≤ 2026 := by
  unfold measuringYear commonYear
  split <;> omega

theorem monthLength_common {year : Int} (years : 2025 ≤ year ∧ year ≤ 2026) (month : Int) :
    monthLength year month = monthLength 1 month := by
  have common : Civil.isLeap year = Civil.isLeap 1 := by
    rcases (by omega : year = 2025 ∨ year = 2026) with rfl | rfl <;> rfl
  unfold monthLength
  rw [common]

theorem not_leapDayBetween_common {start feast : Date}
    (feastOn : Date.ofYmd (measuringYear month day feastMonth feastDay) feastMonth feastDay =
      .ok feast)
    (startOn : Date.ofYmd commonYear month day = .ok start) : ¬Date.LeapDayBetween start feast := by
  rintro ⟨leap, isLeapDay, after, before⟩
  have years := @measuringYear_bounds month feastMonth day feastDay
  obtain ⟨startYear, -, -⟩ := Date.parts_of_ofYmd startOn
  obtain ⟨feastYear, -, -⟩ := Date.parts_of_ofYmd feastOn
  have notEarlier : ¬leap.year < start.year :=
    fun earlier => Int.not_le.mpr (Date.lt_of_year_lt earlier) after
  have notLater : ¬feast.year < leap.year :=
    fun later => Int.not_le.mpr (Date.lt_of_year_lt later) before
  have leapYear := (Civil.isLeap_iff leap.year).mp isLeapDay.isLeap_year
  unfold commonYear at startYear
  omega

theorem fixedSpan?_eq :
    fixedSpan? month day feastMonth feastDay =
      match Date.ofYmd commonYear month day,
        Date.ofYmd (measuringYear month day feastMonth feastDay) feastMonth feastDay with
      | .ok start, .ok feast =>
        if 0 ≤ start.daysTo feast ∧ start.daysTo feast < maxDuration then
          some (start.daysTo feast + 1)
        else none
      | _, _ => none := by
  unfold fixedSpan? measuringYear Civil.ComesAfter
  simp only [Bool.or_eq_true, Bool.and_eq_true, decide_eq_true_eq]
  rfl

def IsCommonDay (month day : Int) : Prop :=
  (1 ≤ month ∧ month ≤ 12) ∧ 1 ≤ day ∧ day ≤ monthLength 1 month

theorem daysTo_of_measured {start feast : Date}
    (startOn : Date.ofYmd commonYear month day = .ok start)
    (feastOn : Date.ofYmd (measuringYear month day feastMonth feastDay) feastMonth feastDay =
      .ok feast) :
    IsCommonDay month day ∧ IsCommonDay feastMonth feastDay ∧
      start.daysTo feast = commonSpan month day feastMonth feastDay := by
  obtain ⟨-, months, days⟩ := Date.number_of_ofYmd startOn
  obtain ⟨-, feastMonths, feastDays⟩ := Date.number_of_ofYmd feastOn
  rw [monthLength_common (by decide)] at days
  rw [monthLength_common measuringYear_bounds] at feastDays
  have startAgain := startOn
  rw [← @yearBefore_measuringYear month feastMonth day feastDay] at startAgain
  obtain ⟨-, plain⟩ := Civil.daysTo_of_ofYmd feastOn feastDays.2 startAgain days.2
  exact ⟨⟨months, days⟩, ⟨feastMonths, feastDays⟩, plain (not_leapDayBetween_common feastOn startOn)⟩

theorem exists_measured (common : IsCommonDay month day)
    (feastCommon : IsCommonDay feastMonth feastDay) :
    ∃ start feast, Date.ofYmd commonYear month day = .ok start ∧
      Date.ofYmd (measuringYear month day feastMonth feastDay) feastMonth feastDay = .ok feast := by
  have first : 2025 ≤ commonYear ∧ commonYear ≤ 2026 := by decide
  have last := @measuringYear_bounds month feastMonth day feastDay
  have days := common.2
  have feastDays := feastCommon.2
  rw [← monthLength_common first] at days
  rw [← monthLength_common last] at feastDays
  obtain ⟨start, startOn, -⟩ := Date.exists_ofYmd ⟨by omega, by omega⟩ common.1 days
  obtain ⟨feast, feastOn, -⟩ := Date.exists_ofYmd ⟨by omega, by omega⟩ feastCommon.1 feastDays
  exact ⟨start, feast, startOn, feastOn⟩

theorem fixedSpan?_eq_some {n : Int} :
    fixedSpan? month day feastMonth feastDay = some n ↔
      IsCommonDay month day ∧ IsCommonDay feastMonth feastDay ∧
        commonSpan month day feastMonth feastDay + 1 = n := by
  rw [fixedSpan?_eq]
  constructor
  · intro told
    split at told
    next start feast startOn feastOn =>
      obtain ⟨common, feastCommon, span⟩ := daysTo_of_measured startOn feastOn
      rw [span] at told
      split at told
      · exact ⟨common, feastCommon, Option.some.inj told⟩
      · cases told
    next => cases told
  · rintro ⟨common, feastCommon, rfl⟩
    obtain ⟨start, feast, startOn, feastOn⟩ := exists_measured common feastCommon
    have bounds := Civil.commonSpan_bounds common.1 common.2 feastCommon.1 feastCommon.2
    simp only [startOn, feastOn]
    rw [(daysTo_of_measured startOn feastOn).2.2]
    exact if_pos ⟨bounds.1, by unfold maxDuration; omega⟩

section Told

variable {novena : Novena} {start : RuleSlot} {given : Json} {anchors : Anchors} {n : Int}
  {feast hint : Date}

/-- How a span that is told compares with the days from the start to the feast in a year. -/
inductive Compares (anchors : Anchors) (hint feast : Date) (n : Int) : RuleSlot → Prop where
  | ownAnchor {days : Count} {key : Key} {date : Date} :
      anchors.find? key.val = some date → hint.daysTo feast + 1 = n + date.daysTo feast →
      Compares anchors hint feast n (.rule (.beforeFeast days (some key)))
  | borrowed {days : Count} :
      hint.daysTo feast + 1 = n → Compares anchors hint feast n (.rule (.beforeFeast days none))
  | common {month : Month} {day : MonthDay} :
      ¬Date.LeapDayBetween hint feast → hint.daysTo feast + 1 = n →
      Compares anchors hint feast n (.rule (.fixed month day))
  | leap {month : Month} {day : MonthDay} :
      Date.LeapDayBetween hint feast → hint.daysTo feast + 1 = n + 1 →
      Compares anchors hint feast n (.rule (.fixed month day))

theorem compares_of_fixed {month feastMonth : Month} {day feastDay : MonthDay}
    (told : fixedSpan? month.val day.val feastMonth.val feastDay.val = some n)
    (feastOn : RuleSlot.resolve (.rule (.fixed feastMonth feastDay)) given anchors none = .ok feast)
    (hinted : novena.startHint (.rule (.fixed month day)) given anchors feast = .ok hint) :
    Compares anchors hint feast n (.rule (.fixed month day)) := by
  obtain ⟨common, feastCommon, span⟩ := fixedSpan?_eq_some.mp told
  obtain ⟨year, whole, feastNamed⟩ := RuleSlot.resolve_fixed_eq_ok.mp feastOn
  have hintNamed := (Novena.startHint_fixed_eq_ok whole feastNamed common.2.2).mp hinted
  obtain ⟨leap, plain⟩ :=
    Civil.daysTo_of_ofYmd feastNamed feastCommon.2.2 hintNamed common.2.2
  by_cases between : Date.LeapDayBetween hint feast
  · exact .leap between (by rw [leap between]; omega)
  · exact .common between (by rw [plain between]; omega)

theorem compares_of_beforeFeast {days : Count} {key : Option Key} (told : days.val = n)
    (feastOn : novena.feast.resolve given anchors none = .ok feast)
    (hinted : novena.startHint (.rule (.beforeFeast days key)) given anchors feast = .ok hint) :
    Compares anchors hint feast n (.rule (.beforeFeast days key)) := by
  obtain ⟨own, date, borrowed, found, span⟩ := Novena.startHint_beforeFeast_eq_ok.mp hinted
  unfold Date.daysTo at span
  cases key with
  | some key =>
    cases borrowed
    refine .ownAnchor found ?_
    unfold Date.daysTo
    omega
  | none =>
    -- The anchor borrowed is that of the feast, so the feast is on its date.
    have lent : novena.feast = .rule (.anchor own) := by
      unfold Rule.borrowedKey at borrowed
      split at borrowed
      next given => cases given
      next key same => cases borrowed; exact Option.some.inj same
      next => cases borrowed
    have reached : anchors.getForRule own.val given = .ok feast := by
      rw [lent] at feastOn
      exact Attempt.mapError_eq_ok.mp feastOn
    cases found.symm.trans (Anchors.getForRule_eq_ok.mp reached)
    exact .borrowed (by rw [Date.daysTo]; omega)

theorem compares_of_duration? (told : duration? (some start) (some novena.feast) = some n)
    (feastOn : novena.feast.resolve given anchors none = .ok feast)
    (hinted : novena.startHint start given anchors feast = .ok hint) :
    Compares anchors hint feast n start := by
  unfold duration? at told
  split at told
  next days key _ same =>
    cases same
    exact compares_of_beforeFeast (Option.some.inj told) feastOn hinted
  next month day feastMonth feastDay same feastRule =>
    cases same
    rw [Option.some.inj feastRule] at feastOn
    exact compares_of_fixed told feastOn hinted
  next => cases told

theorem Compares.span_eq_iff (compares : Compares anchors hint feast n start) :
    hint.daysTo feast + 1 = n ↔
      (∀ days key, start = .rule (.beforeFeast days (some key)) →
        anchors.find? key.val = some feast) ∧
      ∀ month day, start = .rule (.fixed month day) → ¬Date.LeapDayBetween hint feast := by
  cases compares with
  | @ownAnchor days key date found span =>
    have same : date = feast ↔ date.daysTo feast = 0 := by
      rw [Date.ext_iff, Date.daysTo]
      omega
    constructor
    · intro right
      have onFeast : date = feast := same.mpr (by omega)
      constructor
      · intro days' key' named
        cases named
        rw [found, onFeast]
      · intro month day named
        cases named
    · rintro ⟨fromFeast, -⟩
      have onFeast := found.symm.trans (fromFeast days key rfl)
      have level := same.mp (Option.some.inj onFeast)
      omega
  | borrowed span => simp [span]
  | common none span => simp [span, none]
  | leap between span => simp [span, between]

/-- A span that two rules tell is right in a year just if the start, where it is counted from an
anchor of its own, is counted from the date of the feast, and if no leap day lies between a fixed
start and the feast. Else it is wrong by the days from the one anchor to the other or by one. -/
theorem span_of_duration? (told : duration? (some start) (some novena.feast) = some n)
    (feastOn : novena.feast.resolve given anchors none = .ok feast)
    (hinted : novena.startHint start given anchors feast = .ok hint) :
    Compares anchors hint feast n start ∧
      (hint.daysTo feast + 1 = n ↔
        (∀ days key, start = .rule (.beforeFeast days (some key)) →
          anchors.find? key.val = some feast) ∧
        ∀ month day, start = .rule (.fixed month day) → ¬Date.LeapDayBetween hint feast) := by
  have compares := compares_of_duration? told feastOn hinted
  exact ⟨compares, compares.span_eq_iff⟩

end Told

def lateWinter : Novena where
  id := .named "late_winter"
  title := .str "Late winter"
  feast := .rule (.fixed (.of 3) (.of 5))
  start := some (.rule (.fixed (.of 2) (.of 20)))

theorem duration?_lateWinter : duration? lateWinter.start (some lateWinter.feast) = some 14 := by
  decide +kernel

/-- From 20 February to 5 March it is fourteen days, and fifteen in a leap year. -/
theorem span_of_duration?_lateWinter :
    duration? lateWinter.start (some lateWinter.feast) = some 14 ∧
      ∃ feast hint, feast.iso = "2024-03-05" ∧ hint.iso = "2024-02-20" ∧
        lateWinter.feast.resolve (.int 2024) (.plain []) none = .ok feast ∧
        lateWinter.startHint (.rule (.fixed (.of 2) (.of 20))) (.int 2024) (.plain []) feast =
          .ok hint ∧
        hint.daysTo feast + 1 = 15 ∧ Date.LeapDayBetween hint feast := by
  refine ⟨duration?_lateWinter, ⟨738950, by decide, by decide⟩, ⟨738936, by decide, by decide⟩,
    by decide, by decide, rfl, rfl, by decide, ?_⟩
  have feastOn : lateWinter.feast.resolve (.int 2024) (.plain []) none =
      .ok ⟨738950, by decide, by decide⟩ := rfl
  have hinted : lateWinter.startHint (.rule (.fixed (.of 2) (.of 20))) (.int 2024) (.plain [])
      ⟨738950, by decide, by decide⟩ = .ok ⟨738936, by decide, by decide⟩ := rfl
  have compared := span_of_duration? duration?_lateWinter feastOn hinted
  by_contra none
  have counted : ∀ days key,
      (RuleSlot.rule (.fixed (.of 2) (.of 20)) : RuleSlot) = .rule (.beforeFeast days (some key)) →
        Anchors.find? (.plain []) key.val = some (⟨738950, by decide, by decide⟩ : Date) := by
    intro days key same
    cases same
  have told := compared.2.mpr ⟨counted, fun _ _ _ => none⟩
  exact absurd told (by decide)

/-- A span that is told is not that of every year. -/
theorem not_span_every_year :
    ¬∀ (novena : Novena) (start : RuleSlot) (n : Int),
        duration? (some start) (some novena.feast) = some n →
        ∀ given anchors feast hint, novena.feast.resolve given anchors none = .ok feast →
          novena.startHint start given anchors feast = .ok hint → hint ≤ feast →
          hint.daysTo feast + 1 = n := by
  intro every
  have told := every lateWinter _ 14 duration?_lateWinter (.int 2024) (.plain [])
    ⟨738950, by decide, by decide⟩ ⟨738936, by decide, by decide⟩ rfl rfl (by decide)
  exact absurd told (by decide)

end Scrape

end FeastCalendar
