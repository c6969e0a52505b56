import FeastCalendar.Proofs.Novena.Span
import FeastCalendar.Proofs.Rule.Saying

/-!
Novenas from wordings that name days of the year. Each resolves in every year but the first. Its
feast is on the day named and its hint on the last day of that name before it; they span the
duration, unless a leap day lies between them: then the novena starts a day after the hint.
-/

namespace FeastCalendar
open Civil (Date monthLength yearBefore commonSpan)

namespace Phrase

def NamesDay (text : String) (month : Month) (day : MonthDay) : Prop :=
  Spells (words text) (.monthDay month day)

variable {text : String} {month : Month} {day : MonthDay}

theorem namesDay_of_renders {name : String} (listed : (name, month.val) ∈ months)
    (renders : Text.Renders text [name, digitsOf day.val.toNat]) : NamesDay text month day := by
  have told : Tells [] IsReadable [name, digitsOf day.val.toNat] (.fixed month day) :=
    .monthDay listed
  rw [NamesDay, words_of_renders renders told.plain]
  exact .monthDay listed (isMonthDay_digitsOf day)

theorem parseBuiltin_of_namesDay (named : NamesDay text month day) :
    parseBuiltin text = .ok (.fixed month day) := by
  rw [parseBuiltin, parse_of_spells named]
  rfl

end Phrase

section Days

variable {month feastMonth : Month} {day feastDay : MonthDay} {year : Int} {feast hint : Date}

/-- The common span back from a day is the last time another came before it, or, over a leap day,
the day after. -/
theorem exists_commonStart
    (feastOn : Date.ofYmd year feastMonth.val feastDay.val = .ok feast)
    (feastCommon : feastDay.val ≤ monthLength 1 feastMonth.val)
    (hintOn : Date.ofYmd (yearBefore month.val day.val feastMonth.val feastDay.val year) month.val
      day.val = .ok hint)
    (common : day.val ≤ monthLength 1 month.val) :
    ∃ start, feast.add? (-commonSpan month.val day.val feastMonth.val feastDay.val) = some start ∧
      (hint = start ↔ ¬Date.LeapDayBetween hint feast) ∧
      (Date.LeapDayBetween hint feast → hint.add? 1 = some start) := by
  obtain ⟨leap, plain⟩ := Civil.daysTo_of_ofYmd feastOn feastCommon hintOn common
  have bounds := Civil.commonSpan_bounds month.property ⟨day.property.1, common⟩
    feastMonth.property ⟨feastDay.property.1, feastCommon⟩
  have low := hint.one_le
  have high := feast.le_last
  unfold Date.daysTo at leap plain
  have reached :
      1 ≤ feast.number + -commonSpan month.val day.val feastMonth.val feastDay.val := by
    by_cases between : Date.LeapDayBetween hint feast
    · have span := leap between
      omega
    · have span := plain between
      omega
  obtain ⟨start, moved, number⟩ := feast.exists_add? _ ⟨reached, by omega⟩
  refine ⟨start, moved, ?_, ?_⟩
  · rw [Date.ext_iff, number]
    constructor
    · intro same between
      have span := leap between
      omega
    · intro none
      have span := plain none
      omega
  · intro between
    have span := leap between
    rw [Date.add?_eq_some_iff]
    omega

variable {novena : Novena}

theorem Novena.exists_resolve_of_days (onFeast : novena.feast = .rule (.fixed feastMonth feastDay))
    (starts : novena.start = some (.rule (.fixed month day)))
    (duration : novena.duration =
      .int (commonSpan month.val day.val feastMonth.val feastDay.val + 1))
    (common : day.val ≤ monthLength 1 month.val)
    (feastCommon : feastDay.val ≤ monthLength 1 feastMonth.val) (years : 2 ≤ year ∧ year ≤ 9999)
    (anchors : Anchors) :
    ∃ window hint, novena.resolve (.int year) anchors = .ok window ∧
      Date.ofYmd year feastMonth.val feastDay.val = .ok window.feast ∧
      window.hint = some hint ∧ Date.LatestUpTo month.val day.val window.feast hint ∧
      (window.hintAccepted ↔ ¬Date.LeapDayBetween hint window.feast) ∧
      (Date.LeapDayBetween hint window.feast → hint.add? 1 = some window.start) := by
  have held : 1 ≤ year ∧ year ≤ 9999 := ⟨by omega, years.2⟩
  obtain ⟨feast, feastOn, -⟩ := Date.exists_ofYmd_of_common held feastCommon
  obtain ⟨hint, hintOn, -⟩ := Date.exists_ofYmd_of_common (Civil.yearBefore_bounds years) common
  obtain ⟨start, moved, accepted, next⟩ := exists_commonStart feastOn feastCommon hintOn common
  have bounds := Civil.commonSpan_bounds month.property ⟨day.property.1, common⟩
    feastMonth.property ⟨feastDay.property.1, feastCommon⟩
  have checked : novena.checkedDuration (.int year) =
      .ok (commonSpan month.val day.val feastMonth.val feastDay.val + 1) := by
    apply checkedDuration_eq_ok.mpr
    rw [effectiveDuration, duration]
    exact ⟨rfl, by omega, by unfold maxDuration; omega⟩
  have hinted : novena.startHint (.rule (.fixed month day)) (.int year) anchors feast = .ok hint :=
    (startHint_fixed_eq_ok rfl feastOn common).mpr hintOn
  have dated : novena.dates (.int year) anchors
      (commonSpan month.val day.val feastMonth.val feastDay.val + 1) =
        .ok (feast, start, some hint) := by
    apply dates_eq_ok.mpr
    rw [onFeast, starts, Int.add_sub_cancel]
    exact ⟨RuleSlot.resolve_fixed_eq_ok.mpr ⟨year, rfl, feastOn⟩, moved, hint, hinted, rfl⟩
  refine ⟨novena.windowOn _ feast start (some hint), hint,
    resolve_eq_ok.mpr ⟨_, feast, start, some hint, checked, dated, rfl⟩, feastOn, rfl,
    Civil.latestUpTo_of_ofYmd feastOn hintOn, ?_, next⟩
  simp only [windowOn, Option.some.injEq, decide_eq_true_eq]
  exact accepted

end Days

namespace Scrape
open Phrase (NamesDay)

variable {title startText feastText : String} {source : Json}

theorem exists_key (field : String) {name : String} (filled : name ≠ "") :
    ∃ key, Checked.key field (.str name) = .ok key :=
  ⟨⟨name, mt Text.ofString_eq_nil.mp filled⟩, Checked.key_eq_ok.mpr rfl⟩

theorem exists_definition {start feast : Rule}
    (identified : Text.identifier (normalizeTitle title) ≠ "")
    (startRead : Phrase.parseBuiltin startText = .ok start)
    (feastRead : Phrase.parseBuiltin feastText = .ok feast) :
    ∃ novena, definition title startText feastText source = .ok novena ∧
      novena.feast = .rule feast ∧ novena.start = some (.rule start) ∧
      novena.duration =
        match duration? (some (.rule start)) (some (.rule feast)) with
        | some days => .int days
        | none => .null := by
  obtain ⟨id, keyed⟩ := exists_key "novena.id" identified
  rw [definition, startRead, feastRead, keyed]
  simp only [Attempt.ok_bind]
  exact ⟨_, Attempt.pure_eq_ok.mpr rfl, rfl, rfl, rfl⟩

variable {month feastMonth : Month} {day feastDay : MonthDay}

theorem exists_definition_of_days (identified : Text.identifier (normalizeTitle title) ≠ "")
    (startNamed : NamesDay startText month day)
    (feastNamed : NamesDay feastText feastMonth feastDay)
    (common : IsCommonDay month.val day.val)
    (feastCommon : IsCommonDay feastMonth.val feastDay.val) :
    ∃ novena, definition title startText feastText source = .ok novena ∧
      novena.feast = .rule (.fixed feastMonth feastDay) ∧
      novena.start = some (.rule (.fixed month day)) ∧
      novena.duration = .int (commonSpan month.val day.val feastMonth.val feastDay.val + 1) := by
  obtain ⟨novena, defined, onFeast, start, duration⟩ :=
    exists_definition identified (Phrase.parseBuiltin_of_namesDay startNamed)
      (Phrase.parseBuiltin_of_namesDay feastNamed)
  have told : duration? (some (.rule (.fixed month day)))
        (some (.rule (.fixed feastMonth feastDay))) =
      some (commonSpan month.val day.val feastMonth.val feastDay.val + 1) :=
    fixedSpan?_eq_some.mpr ⟨common, feastCommon, rfl⟩
  rw [told] at duration
  exact ⟨novena, defined, onFeast, start, duration⟩

/-- A novena that two wordings name by days of the year resolves, with the feast on its day and the
hint on the last day of its name before. The hint is accepted unless a leap day lies between; then
the novena starts on the day after it. -/
theorem resolve_definition (identified : Text.identifier (normalizeTitle title) ≠ "")
    (startNamed : NamesDay startText month day)
    (feastNamed : NamesDay feastText feastMonth feastDay)
    (common : IsCommonDay month.val day.val)
    (feastCommon : IsCommonDay feastMonth.val feastDay.val) {year : Int}
    (years : 2 ≤ year ∧ year ≤ 9999) (anchors : Anchors) :
    ∃ novena window hint, definition title startText feastText source = .ok novena ∧
      novena.resolve (.int year) anchors = .ok window ∧
      Date.ofYmd year feastMonth.val feastDay.val = .ok window.feast ∧
      window.hint = some hint ∧ Date.LatestUpTo month.val day.val window.feast hint ∧
      (window.hintAccepted ↔ ¬Date.LeapDayBetween hint window.feast) ∧
      (Date.LeapDayBetween hint window.feast → hint.add? 1 = some window.start) := by
  obtain ⟨novena, defined, onFeast, starts, duration⟩ :=
    exists_definition_of_days identified startNamed feastNamed common feastCommon
  obtain ⟨window, hint, resolved⟩ := Novena.exists_resolve_of_days onFeast starts duration
    common.2.2 feastCommon.2.2 years anchors
  exact ⟨novena, window, hint, defined, resolved⟩

/-- In 2024 the leap day makes a novena from 20 February start on 21 February. -/
theorem resolve_definition_lateWinter :
    Text.identifier (normalizeTitle "Late Winter Novena") ≠ "" ∧
      NamesDay "February 20" (.of 2) (.of 20) ∧ NamesDay " MARCH  5. " (.of 3) (.of 5) ∧
      ∃ novena window hint,
        definition "Late Winter Novena" "February 20" " MARCH  5. " .null = .ok novena ∧
        novena.resolve (.int 2024) (.plain []) = .ok window ∧ window.feast.iso = "2024-03-05" ∧
        window.hint = some hint ∧ hint.iso = "2024-02-20" ∧ Date.LeapDayBetween hint window.feast ∧
        window.hintAccepted = false ∧ window.start.iso = "2024-02-21" := by
  have identified : Text.identifier (normalizeTitle "Late Winter Novena") ≠ "" := by decide +kernel
  have years : 2 ≤ (2024 : Int) ∧ (2024 : Int) ≤ 9999 := by decide
  have startNamed : NamesDay "February 20" (.of 2) (.of 20) := by
    have listed : ("february", 2) ∈ Phrase.months := by decide
    exact Phrase.namesDay_of_renders listed
      ⟨[], "February".toList ++ [' '] ++ "20".toList, [], [], rfl, nofun,
        .next rfl (by decide) (List.all_eq_true.mp rfl) (.last rfl), nofun, nofun⟩
  have feastNamed : NamesDay " MARCH  5. " (.of 3) (.of 5) := by
    have listed : ("march", 3) ∈ Phrase.months := by decide
    exact Phrase.namesDay_of_renders listed
      ⟨[' '], "MARCH".toList ++ [' ', ' '] ++ "5".toList, ['.'], [' '], rfl,
        List.all_eq_true.mp rfl, .next rfl (by decide) (List.all_eq_true.mp rfl) (.last rfl),
        by simp, List.all_eq_true.mp rfl⟩
  obtain ⟨novena, window, hint, defined, resolved, feastOn, hinted, latest, accepted, next⟩ :=
    resolve_definition identified startNamed feastNamed (by unfold IsCommonDay; decide)
      (by unfold IsCommonDay; decide) years (.plain [])
  have onFeast : window.feast = ⟨738950, by decide, by decide⟩ :=
    Except.ok.inj (feastOn.symm.trans rfl)
  rw [onFeast] at latest accepted next
  have lastOn : Date.ofYmd 2024 3 5 = .ok ⟨738950, by decide, by decide⟩ := rfl
  have onHint : hint = ⟨738936, by decide, by decide⟩ :=
    latest.eq (Civil.latestUpTo_of_ofYmd lastOn rfl)
  rw [onHint] at accepted next
  have between : Date.LeapDayBetween ⟨738936, by decide, by decide⟩
      ⟨738950, by decide, by decide⟩ :=
    ⟨⟨738945, by decide, by decide⟩, by unfold Date.IsLeapDay; decide, by decide, by decide⟩
  have onStart : window.start = ⟨738937, by decide, by decide⟩ :=
    Option.some.inj ((next between).symm.trans rfl)
  refine ⟨identified, startNamed, feastNamed, novena, window, hint, defined, resolved, ?_, hinted,
    ?_, ?_, ?_, ?_⟩
  · rw [onFeast]
    decide
  · rw [onHint]
    decide
  · rw [onFeast, onHint]
    exact between
  · exact Bool.eq_false_iff.mpr fun yes => accepted.mp yes between
  · rw [onStart]
    decide

end Scrape

end FeastCalendar
