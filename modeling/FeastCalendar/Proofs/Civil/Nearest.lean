import Mathlib.Order.Bounds.Basic
import FeastCalendar.Proofs.Civil.Weekday
import FeastCalendar.Rule.Checked

/-!
The nearest day of a weekday. A search ahead gives the least day of the weekday from a date on, a
search back the greatest one up to it, and either fails just if the calendar does not hold that day.
A move to a weekday is the one day of it within six days on the side of the policy, so it keeps the
order of dates and is not moved again.
-/

namespace FeastCalendar.Civil

def SnapPolicy.onward : SnapPolicy → Int → Int
  | onOrAfter, days => days
  | onOrBefore, days => -days

theorem SnapPolicy.ofName?_name (policy : SnapPolicy) : ofName? policy.name = some policy := by
  cases policy <;> decide

theorem align_name (date : Date) (weekday : Int) (policy : SnapPolicy) :
    Checked.align date weekday (.str policy.name) = inRange (date.align? weekday policy) := by
  rw [Checked.align, SnapPolicy.ofName?_name]

namespace Date

/-- The days of a weekday after a date, and the date itself if `sameDay`. They are told by number
and do not end with the calendar. -/
def daysAhead (date : Date) (weekday : Int) (sameDay : Bool) : Set Int :=
  {n | n % 7 = weekday % 7 ∧ (date.number < n ∨ sameDay = true ∧ n = date.number)}

def daysBehind (date : Date) (weekday : Int) (sameDay : Bool) : Set Int :=
  {n | n % 7 = weekday % 7 ∧ (n < date.number ∨ sameDay = true ∧ n = date.number)}

section Search

variable {date found : Date} {weekday n : Int} {sameDay : Bool} {days : Set Int}

theorem mem_daysAhead {day : Date} :
    day.number ∈ date.daysAhead weekday sameDay ↔
      day.weekday = weekday % 7 ∧ (date < day ∨ sameDay = true ∧ day = date) := by
  rw [ext_iff]
  rfl

theorem mem_daysBehind {day : Date} :
    day.number ∈ date.daysBehind weekday sameDay ↔
      day.weekday = weekday % 7 ∧ (day < date ∨ sameDay = true ∧ day = date) := by
  rw [ext_iff]
  rfl

theorem exists_nextWeekday? (date : Date) (weekday : Int) (sameDay : Bool) :
    ∃ n, IsLeast (date.daysAhead weekday sameDay) n ∧
      date.nextWeekday? weekday sameDay = ofNumber? n := by
  cases sameDay with
  | false =>
    refine ⟨_, ⟨⟨?_, Or.inl ?_⟩, ?_⟩, date.nextWeekday?_later weekday⟩
    · omega
    · omega
    · rintro n ⟨own, after | ⟨same, -⟩⟩
      · omega
      · cases same
  | true =>
    refine ⟨_, ⟨⟨?_, ?_⟩, ?_⟩, date.nextWeekday?_sameDay weekday⟩
    · omega
    · simp only [true_and]
      omega
    · rintro n ⟨own, after⟩
      simp only [true_and] at after
      omega

theorem exists_prevWeekday? (date : Date) (weekday : Int) (sameDay : Bool) :
    ∃ n, IsGreatest (date.daysBehind weekday sameDay) n ∧
      date.prevWeekday? weekday sameDay = ofNumber? n := by
  cases sameDay with
  | false =>
    refine ⟨_, ⟨⟨?_, Or.inl ?_⟩, ?_⟩, date.prevWeekday?_earlier weekday⟩
    · omega
    · omega
    · rintro n ⟨own, before | ⟨same, -⟩⟩
      · omega
      · cases same
  | true =>
    refine ⟨_, ⟨⟨?_, ?_⟩, ?_⟩, date.prevWeekday?_sameDay weekday⟩
    · omega
    · simp only [true_and]
      omega
    · rintro n ⟨own, before⟩
      simp only [true_and] at before
      omega

theorem isLeast_iff (least : IsLeast days n) (low : 1 ≤ n) :
    IsLeast {day : Date | day.number ∈ days} found ↔ ofNumber? n = some found := by
  constructor
  · rintro ⟨member, lowest⟩
    have upper := least.2 member
    obtain ⟨day, held, number⟩ := exists_ofNumber? ⟨low, Int.le_trans upper found.le_last⟩
    have own : day.number ∈ days := number ▸ least.1
    have lower : found.number ≤ day.number := lowest own
    rw [held, ext_iff.mpr (by omega : day.number = found.number)]
  · intro held
    obtain rfl := number_of_ofNumber? held
    exact ⟨least.1, fun day member => least.2 member⟩

theorem isGreatest_iff (greatest : IsGreatest days n) (high : n ≤ lastDay) :
    IsGreatest {day : Date | day.number ∈ days} found ↔ ofNumber? n = some found := by
  constructor
  · rintro ⟨member, highest⟩
    have lower := greatest.2 member
    obtain ⟨day, held, number⟩ := exists_ofNumber? ⟨Int.le_trans found.one_le lower, high⟩
    have own : day.number ∈ days := number ▸ greatest.1
    have upper : day.number ≤ found.number := highest own
    rw [held, ext_iff.mpr (by omega : day.number = found.number)]
  · intro held
    obtain rfl := number_of_ofNumber? held
    exact ⟨greatest.1, fun day member => greatest.2 member⟩

theorem nextWeekday?_eq_some_iff :
    date.nextWeekday? weekday sameDay = some found ↔
      IsLeast {day : Date | day.weekday = weekday % 7 ∧ (date < day ∨ sameDay = true ∧ day = date)}
        found := by
  obtain ⟨n, least, reached⟩ := exists_nextWeekday? date weekday sameDay
  have start := date.one_le
  have low : 1 ≤ n := by
    rcases least.1.2 with after | ⟨-, same⟩ <;> omega
  simp only [reached, ← isLeast_iff least low, mem_daysAhead]

theorem prevWeekday?_eq_some_iff :
    date.prevWeekday? weekday sameDay = some found ↔
      IsGreatest
        {day : Date | day.weekday = weekday % 7 ∧ (day < date ∨ sameDay = true ∧ day = date)}
        found := by
  obtain ⟨n, greatest, reached⟩ := exists_prevWeekday? date weekday sameDay
  have start := date.le_last
  have high : n ≤ lastDay := by
    rcases greatest.1.2 with before | ⟨-, same⟩ <;> omega
  simp only [reached, ← isGreatest_iff greatest high, mem_daysBehind]

theorem nextWeekday?_eq_none_iff :
    date.nextWeekday? weekday sameDay = none ↔
      ∃ n, IsLeast (date.daysAhead weekday sameDay) n ∧ ¬(1 ≤ n ∧ n ≤ lastDay) := by
  obtain ⟨n, least, reached⟩ := exists_nextWeekday? date weekday sameDay
  rw [reached, ofNumber?_eq_none_iff]
  constructor
  · exact fun beyond => ⟨n, least, by omega⟩
  · rintro ⟨other, also, beyond⟩
    obtain rfl := least.unique also
    omega

theorem prevWeekday?_eq_none_iff :
    date.prevWeekday? weekday sameDay = none ↔
      ∃ n, IsGreatest (date.daysBehind weekday sameDay) n ∧ ¬(1 ≤ n ∧ n ≤ lastDay) := by
  obtain ⟨n, greatest, reached⟩ := exists_prevWeekday? date weekday sameDay
  rw [reached, ofNumber?_eq_none_iff]
  constructor
  · exact fun beyond => ⟨n, greatest, by omega⟩
  · rintro ⟨other, also, beyond⟩
    obtain rfl := greatest.unique also
    omega

end Search

section Align

variable {date later aligned moved : Date} {weekday : Int} {policy : SnapPolicy}

/-- A date is moved ahead to the one day of the weekday within six days. -/
theorem align?_onOrAfter_eq_some_iff :
    date.align? weekday .onOrAfter = some aligned ↔
      aligned.number % 7 = weekday % 7 ∧
        date.number ≤ aligned.number ∧ aligned.number ≤ date.number + 6 := by
  rw [align?_onOrAfter, ofNumber?_eq_some_iff]
  omega

theorem align?_onOrBefore_eq_some_iff :
    date.align? weekday .onOrBefore = some aligned ↔
      aligned.number % 7 = weekday % 7 ∧
        aligned.number ≤ date.number ∧ date.number ≤ aligned.number + 6 := by
  rw [align?_onOrBefore, ofNumber?_eq_some_iff]
  omega

theorem align?_aligned (found : date.align? weekday policy = some aligned) :
    aligned.align? weekday policy = some aligned := by
  cases policy with
  | onOrAfter =>
    rw [align?_onOrAfter_eq_some_iff] at found ⊢
    omega
  | onOrBefore =>
    rw [align?_onOrBefore_eq_some_iff] at found ⊢
    omega

theorem align?_mono (order : date ≤ later) (found : date.align? weekday policy = some aligned)
    (also : later.align? weekday policy = some moved) : aligned ≤ moved := by
  rw [le_iff] at order ⊢
  cases policy with
  | onOrAfter =>
    rw [align?_onOrAfter_eq_some_iff] at found also
    omega
  | onOrBefore =>
    rw [align?_onOrBefore_eq_some_iff] at found also
    omega

theorem onward_of_align? (found : date.align? weekday policy = some aligned) :
    0 ≤ policy.onward (date.daysTo aligned) ∧ policy.onward (date.daysTo aligned) ≤ 6 := by
  unfold daysTo
  cases policy with
  | onOrAfter =>
    rw [align?_onOrAfter_eq_some_iff] at found
    simp only [SnapPolicy.onward]
    omega
  | onOrBefore =>
    rw [align?_onOrBefore_eq_some_iff] at found
    simp only [SnapPolicy.onward]
    omega

theorem align?_eq_iff (found : date.align? weekday .onOrAfter = some aligned)
    (also : date.align? weekday .onOrBefore = some moved) :
    aligned = moved ↔ date.weekday = weekday % 7 := by
  have remainder : date.weekday = date.number % 7 := rfl
  rw [align?_onOrAfter_eq_some_iff] at found
  rw [align?_onOrBefore_eq_some_iff] at also
  rw [ext_iff]
  omega

theorem daysTo_of_align? (found : date.align? weekday .onOrAfter = some aligned)
    (also : date.align? weekday .onOrBefore = some moved) (other : date.weekday ≠ weekday % 7) :
    moved.daysTo aligned = 7 := by
  have remainder : date.weekday = date.number % 7 := rfl
  rw [align?_onOrAfter_eq_some_iff] at found
  rw [align?_onOrBefore_eq_some_iff] at also
  unfold daysTo
  omega

end Align

/-- A search gives the nearest day of the weekday on its side and fails just if the calendar does not
hold it. A move to a weekday is such a search with the date itself included: it does not move a date
again, keeps the order of dates and takes less than a week, and the two policies agree on the days
of the weekday and lie a week apart for all others. -/
theorem nearest_weekday (weekday : Int) :
    (∀ (date : Date) (sameDay : Bool),
      (∀ found, inRange (date.nextWeekday? weekday sameDay) = .ok found ↔
        IsLeast
          {day : Date | day.weekday = weekday % 7 ∧ (date < day ∨ sameDay = true ∧ day = date)}
          found) ∧
      (inRange (date.nextWeekday? weekday sameDay) = .error (.date .beyondRange) ↔
        ∃ n, IsLeast (date.daysAhead weekday sameDay) n ∧ ¬(1 ≤ n ∧ n ≤ lastDay)) ∧
      (∀ found, inRange (date.prevWeekday? weekday sameDay) = .ok found ↔
        IsGreatest
          {day : Date | day.weekday = weekday % 7 ∧ (day < date ∨ sameDay = true ∧ day = date)}
          found) ∧
      (inRange (date.prevWeekday? weekday sameDay) = .error (.date .beyondRange) ↔
        ∃ n, IsGreatest (date.daysBehind weekday sameDay) n ∧ ¬(1 ≤ n ∧ n ≤ lastDay))) ∧
    (∀ date : Date,
      Checked.align date weekday (.str SnapPolicy.onOrAfter.name) =
        inRange (date.nextWeekday? weekday true) ∧
      Checked.align date weekday (.str SnapPolicy.onOrBefore.name) =
        inRange (date.prevWeekday? weekday true)) ∧
    (∀ (policy : SnapPolicy) (date aligned : Date),
      Checked.align date weekday (.str policy.name) = .ok aligned →
        Checked.align aligned weekday (.str policy.name) = .ok aligned ∧
        (∀ later moved, date ≤ later → Checked.align later weekday (.str policy.name) = .ok moved →
          aligned ≤ moved) ∧
        0 ≤ policy.onward (date.daysTo aligned) ∧ policy.onward (date.daysTo aligned) ≤ 6) ∧
    ∀ date after before : Date,
      Checked.align date weekday (.str SnapPolicy.onOrAfter.name) = .ok after →
      Checked.align date weekday (.str SnapPolicy.onOrBefore.name) = .ok before →
        (after = before ↔ date.weekday = weekday % 7) ∧
        (date.weekday ≠ weekday % 7 → before.daysTo after = 7) := by
  simp only [align_name, inRange_eq_ok, inRange_eq_error, and_true]
  refine ⟨fun date sameDay => ⟨?_, ?_, ?_, ?_⟩, fun date => ⟨rfl, rfl⟩, ?_, ?_⟩
  · exact fun found => nextWeekday?_eq_some_iff
  · exact nextWeekday?_eq_none_iff
  · exact fun found => prevWeekday?_eq_some_iff
  · exact prevWeekday?_eq_none_iff
  · intro policy date aligned found
    refine ⟨align?_aligned found, ?_, onward_of_align? found⟩
    exact fun later moved order also => align?_mono order found also
  · intro date after before found also
    exact ⟨align?_eq_iff found also, daysTo_of_align? found also⟩

/-- From 22 December 9999, a Wednesday, the two policies lead to the Saturdays of 25 and 18 December;
weekday 13 is a Saturday too. The calendar holds no Saturday after the 25th. -/
theorem nearest_weekday_lastSaturday :
    ∃ wednesday saturday earlier : Date,
      (wednesday.number = 3652050 ∧ saturday.number = 3652053 ∧ earlier.number = 3652046) ∧
      Checked.align wednesday 13 (.str SnapPolicy.onOrAfter.name) = .ok saturday ∧
      Checked.align wednesday 13 (.str SnapPolicy.onOrBefore.name) = .ok earlier ∧
      Checked.align saturday 13 (.str SnapPolicy.onOrAfter.name) = .ok saturday ∧
      wednesday.weekday ≠ 13 % 7 ∧ earlier.daysTo saturday = 7 ∧
      inRange (saturday.nextWeekday? 13 false) = .error (.date .beyondRange) ∧
      ∃ n, IsLeast (saturday.daysAhead 13 false) n ∧ ¬(1 ≤ n ∧ n ≤ lastDay) := by
  let wednesday : Date := ⟨3652050, by decide, by decide⟩
  let saturday : Date := ⟨3652053, by decide, by decide⟩
  let earlier : Date := ⟨3652046, by decide, by decide⟩
  have ahead : Checked.align wednesday 13 (.str SnapPolicy.onOrAfter.name) = .ok saturday := by
    rw [align_name]
    rfl
  have back : Checked.align wednesday 13 (.str SnapPolicy.onOrBefore.name) = .ok earlier := by
    rw [align_name]
    rfl
  have other : wednesday.weekday ≠ 13 % 7 := by decide
  have beyond : inRange (saturday.nextWeekday? 13 false) = .error (.date .beyondRange) := rfl
  obtain ⟨searches, -, moves, apart⟩ := nearest_weekday 13
  exact ⟨wednesday, saturday, earlier, ⟨rfl, rfl, rfl⟩, ahead, back, (moves _ _ _ ahead).1, other,
    (apart _ _ _ ahead back).2 other, beyond, (searches saturday false).2.1.mp beyond⟩

end Date

end FeastCalendar.Civil
