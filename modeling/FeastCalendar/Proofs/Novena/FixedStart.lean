import FeastCalendar.Proofs.Novena.Span

/-!
Novenas that are said to start on a fixed day. The day is taken where it came last before the feast.
Within a year before the feast it comes nowhere else, so that a computed start on that day is never
passed over.
-/

namespace FeastCalendar.Novena
open Civil (Date)

section Fixed

variable {novena : Novena} {given : Json} {anchors : Anchors} {month : Month} {day : MonthDay}

theorem latestUpTo_of_startHint {feast hint : Date} (inYear : given.whole? = some feast.year)
    (hinted : novena.startHint (.rule (.fixed month day)) given anchors feast = .ok hint) :
    Date.LatestUpTo month.val day.val feast hint ∧ hint.daysTo feast ≤ 365 := by
  obtain ⟨-, hintOn⟩ := (startHint_fixed_eq_ok_iff inYear feast.ofYmd_parts).mp hinted
  exact ⟨Civil.latestUpTo_of_ofYmd feast.ofYmd_parts hintOn,
    Civil.daysTo_le_of_ofYmd feast.ofYmd_parts hintOn⟩

/-- A fixed start is accepted just if the computed start is on its day, as long as the novena is no
longer than 365 days. The date of a fixed start is at most a year before the feast, and not after
it, however long the novena. -/
theorem fixedStart_accepted {window : NovenaInstance}
    (fixed : novena.start = some (.rule (.fixed month day)))
    (found : novena.resolve given anchors = .ok window)
    (inYear : given.whole? = some window.feast.year) :
    (window.duration ≤ 365 →
      (window.hintAccepted ↔ window.start.month = month.val ∧ window.start.day = day.val)) ∧
    ∃ hint, window.hint = some hint ∧ hint ≤ window.feast ∧ hint.daysTo window.feast ≤ 365 := by
  obtain ⟨duration, feast, start, hint, checked, dated, rfl⟩ := resolve_eq_ok.mp found
  obtain ⟨-, positive, -⟩ := checkedDuration_eq_ok.mp checked
  obtain ⟨-, moved, hinted⟩ := dates_eq_ok.mp dated
  rw [fixed] at hinted
  obtain ⟨hint, hinted, rfl⟩ := hinted
  obtain ⟨latest, near⟩ := latestUpTo_of_startHint inYear hinted
  obtain ⟨order, span⟩ := window_agrees positive moved
  refine ⟨fun short => ?_, hint, rfl, latest.notAfter, near⟩
  have within : start.daysTo feast ≤ 364 := by
    have length : duration ≤ 365 := short
    omega
  have accepted : (novena.windowOn duration feast start (some hint)).hintAccepted ↔ hint = start := by
    simp [windowOn]
  rw [accepted]
  exact latest.eq_iff_day order within

end Fixed

def yearEnd (day : MonthDay) (days : Int) : Novena where
  id := .named "year_end"
  title := .str "Year's end"
  feast := .rule (.fixed (.of 12) (.of 30))
  start := some (.rule (.fixed (.of 12) day))
  duration := .int days

theorem fixedStart_accepted_yearEnd :
    ∃ window, (yearEnd (.of 31) 365).resolve (.int 2025) (.plain []) = .ok window ∧
      window.feast.iso = "2025-12-30" ∧ window.start.iso = "2024-12-31" ∧
      window.duration ≤ 365 ∧ window.hintAccepted ∧
      ∃ hint, window.hint = some hint ∧ hint ≤ window.feast ∧ hint.daysTo window.feast ≤ 365 := by
  obtain ⟨window, found, feast, start, duration, year, month, day⟩ : ∃ window,
      (yearEnd (.of 31) 365).resolve (.int 2025) (.plain []) = .ok window ∧
        window.feast.iso = "2025-12-30" ∧ window.start.iso = "2024-12-31" ∧
        window.duration ≤ 365 ∧ window.feast.year = 2025 ∧ window.start.month = 12 ∧
        window.start.day = 31 :=
    ⟨_, rfl, by decide, by decide, by decide, by decide, by decide, by decide⟩
  have inYear : Json.whole? (.int 2025) = some window.feast.year := by rw [year]; rfl
  have fixed : (yearEnd (.of 31) 365).start = some (.rule (.fixed (.of 12) (.of 31))) := rfl
  obtain ⟨accepted, bounded⟩ := fixedStart_accepted fixed found inYear
  exact ⟨window, found, feast, start, duration, (accepted duration).mpr ⟨month, day⟩, bounded⟩

/-- With a day more the start comes on the day of the feast, whose last date is the feast itself. -/
example :
    ∃ window, (yearEnd (.of 30) 366).resolve (.int 2025) (.plain []) = .ok window ∧
      window.start.month = 12 ∧ window.start.day = 30 ∧ window.hint = some window.feast ∧
      window.hintAccepted = false :=
  ⟨_, rfl, by decide, by decide, rfl, rfl⟩

end FeastCalendar.Novena
