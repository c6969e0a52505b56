import FeastCalendar.Civil.Weekday

/-!
The searches for weekdays as day numbers. The scan day by day ends on the day that a single
reckoning gives, and weekly steps leave off at the first day that is not before their end.
-/

namespace FeastCalendar.Civil.Date

theorem ext_iff {left right : Date} : left = right ↔ left.number = right.number :=
  ⟨congrArg number, eq_of_number⟩

theorem ofNumber?_eq_none_iff {n : Int} : ofNumber? n = none ↔ n < 1 ∨ lastDay < n := by
  unfold ofNumber?
  split
  · simp
    omega
  · simp
    omega

theorem ofNumber?_eq_some_iff {n : Int} {date : Date} : ofNumber? n = some date ↔ date.number = n := by
  constructor
  · exact number_of_ofNumber?
  · rintro rfl
    exact date.ofNumber?_number

theorem exists_ofNumber? {n : Int} (range : 1 ≤ n ∧ n ≤ lastDay) :
    ∃ date, ofNumber? n = some date ∧ date.number = n := by
  rw [ofNumber?, dif_pos range]
  exact ⟨_, rfl, rfl⟩

theorem add?_eq_none_iff {date : Date} {days : Int} :
    date.add? days = none ↔ date.number + days < 1 ∨ lastDay < date.number + days :=
  ofNumber?_eq_none_iff

theorem exists_add? (date : Date) (days : Int)
    (range : 1 ≤ date.number + days ∧ date.number + days ≤ lastDay) :
    ∃ moved, date.add? days = some moved ∧ moved.number = date.number + days :=
  exists_ofNumber? range

theorem add?_eq_some_iff {date moved : Date} {days : Int} :
    date.add? days = some moved ↔ moved.number = date.number + days :=
  ofNumber?_eq_some_iff

theorem nextWeekday?_sameDay (date : Date) (weekday : Int) :
    date.nextWeekday? weekday true = ofNumber? (date.number + (weekday - date.number) % 7) := by
  have remainder : date.weekday = date.number % 7 := rfl
  simp only [nextWeekday?, Bool.not_true, Bool.and_false, Bool.false_eq_true, if_false, add?]
  congr 1
  omega

theorem nextWeekday?_later (date : Date) (weekday : Int) :
    date.nextWeekday? weekday false =
      ofNumber? (date.number + 1 + (weekday - date.number - 1) % 7) := by
  have remainder : date.weekday = date.number % 7 := rfl
  simp only [nextWeekday?, Bool.not_false, Bool.and_true, decide_eq_true_eq, add?]
  congr 1
  split <;> omega

theorem prevWeekday?_sameDay (date : Date) (weekday : Int) :
    date.prevWeekday? weekday true = ofNumber? (date.number - (date.number - weekday) % 7) := by
  have remainder : date.weekday = date.number % 7 := rfl
  simp only [prevWeekday?, Bool.not_true, Bool.and_false, Bool.false_eq_true, if_false, add?]
  congr 1
  omega

theorem prevWeekday?_earlier (date : Date) (weekday : Int) :
    date.prevWeekday? weekday false =
      ofNumber? (date.number - 1 - (date.number - weekday - 1) % 7) := by
  have remainder : date.weekday = date.number % 7 := rfl
  simp only [prevWeekday?, Bool.not_false, Bool.and_true, decide_eq_true_eq, add?]
  congr 1
  split <;> omega

theorem align?_onOrAfter (date : Date) (weekday : Int) :
    date.align? weekday .onOrAfter = ofNumber? (date.number + (weekday - date.number) % 7) :=
  date.nextWeekday?_sameDay weekday

theorem align?_onOrBefore (date : Date) (weekday : Int) :
    date.align? weekday .onOrBefore = ofNumber? (date.number - (date.number - weekday) % 7) :=
  date.prevWeekday?_sameDay weekday

theorem exists_weeklyUntil? {stop date : Date} {limit weeks : Nat} (room : weeks < limit)
    (before : ∀ week < weeks, date.number + 7 * (week : Int) < stop.number)
    (reaches : stop.number ≤ date.number + 7 * weeks) (held : date.number + 7 * weeks ≤ lastDay) :
    ∃ dates, weeklyUntil? stop limit date = some dates ∧
      dates.map number = (List.range weeks).map fun (week : Nat) => date.number + 7 * (week : Int) := by
  induction weeks generalizing date limit with
  | zero =>
    obtain ⟨more, rfl⟩ : ∃ more, limit = more + 1 := ⟨limit - 1, by omega⟩
    have ended : ¬date < stop := by
      rw [lt_iff]
      omega
    exact ⟨[], by rw [weeklyUntil?, if_neg ended], rfl⟩
  | succ weeks ih =>
    obtain ⟨more, rfl⟩ : ∃ more, limit = more + 1 := ⟨limit - 1, by omega⟩
    have low := date.one_le
    have here : date < stop := by
      have first := before 0 (by omega)
      rw [lt_iff]
      omega
    obtain ⟨next, moved, number⟩ := date.exists_add? 7 ⟨by omega, by omega⟩
    have onward : ∃ dates, weeklyUntil? stop more next = some dates ∧
        dates.map Date.number =
          (List.range weeks).map fun (week : Nat) => next.number + 7 * (week : Int) := by
      apply ih
      · omega
      · intro week fits
        have later := before (week + 1) (by omega)
        omega
      · omega
      · omega
    obtain ⟨dates, found, numbers⟩ := onward
    refine ⟨date :: dates, ?_, ?_⟩
    · rw [weeklyUntil?, if_pos here, if_neg (by omega), moved]
      simp only [found, Option.map_some]
    · rw [List.map_cons, numbers, List.range_succ_eq_map, List.map_cons, List.map_map]
      congr 1
      · omega
      · refine List.map_congr_left fun week _ => ?_
        simp only [Function.comp_apply, Nat.succ_eq_add_one]
        omega

/-- With fuel to the end of the calendar the scan finds the day, unless the calendar ends first. -/
theorem scanWeekday_eq {weekday : Int} (weekdays : 0 ≤ weekday ∧ weekday ≤ 6) {count : Int}
    (positive : 1 ≤ count) {fuel : Nat} {date : Date} (enough : lastDay < date.number + fuel) :
    scanWeekday weekday count fuel date =
      ofNumber? (date.number + (weekday - date.weekday) % 7 + 7 * (count - 1)) := by
  induction fuel generalizing count date with
  | zero =>
    have last := date.le_last
    omega
  | succ fuel ih =>
    have own := date.weekday_bounds
    rw [scanWeekday]
    by_cases found : date.weekday = weekday ∧ count = 1
    · have here : date.number + (weekday - date.weekday) % 7 + 7 * (count - 1) = date.number := by
        omega
      rw [if_pos (by simpa using found), here, ofNumber?_number]
    · rw [if_neg (by simpa using found)]
      cases step : date.add? 1 with
      | none =>
        have ended := add?_eq_none_iff.mp step
        have low := date.one_le
        refine (ofNumber?_eq_none_iff.mpr ?_).symm
        by_cases same : date.weekday = weekday
        · have further : count ≠ 1 := fun one => found ⟨same, one⟩
          omega
        · omega
      | some next =>
        have number : next.number = date.number + 1 := number_of_ofNumber? step
        have nextWeekday := weekday_of_add? step
        simp only
        by_cases same : date.weekday = weekday
        · have further : count ≠ 1 := fun one => found ⟨same, one⟩
          rw [if_pos same, ih (by omega) (by omega)]
          congr 1
          omega
        · rw [if_neg same, ih positive (by omega)]
          congr 1
          omega

theorem nthWeekdayAfter?_eq {weekday : Int} (weekdays : 0 ≤ weekday ∧ weekday ≤ 6) {count : Int}
    (positive : 1 ≤ count) (date : Date) :
    date.nthWeekdayAfter? weekday count =
      ofNumber? (date.number + 1 + (weekday - date.number - 1) % 7 + 7 * (count - 1)) := by
  have low := date.one_le
  have last := date.le_last
  rw [nthWeekdayAfter?]
  cases step : date.add? 1 with
  | none =>
    have ended := add?_eq_none_iff.mp step
    refine (ofNumber?_eq_none_iff.mpr ?_).symm
    omega
  | some next =>
    have number : next.number = date.number + 1 := number_of_ofNumber? step
    simp only
    have remainder : next.weekday = next.number % 7 := rfl
    rw [scanWeekday_eq weekdays positive (by omega)]
    congr 1
    omega

end FeastCalendar.Civil.Date
