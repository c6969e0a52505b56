import FeastCalendar.Civil.Date

/-!
A date and its parts. The year, month and day read off a date name that date, and a date named by a
year, month and day has these parts.
-/

namespace FeastCalendar.Civil

theorem isLeap_iff (year : Int) :
    isLeap year = true ↔ year % 4 = 0 ∧ (year % 100 ≠ 0 ∨ year % 400 = 0) := by
  simp [isLeap]

/-- Years counted by fours of centuries, centuries, fours and single years begin where these add up
to. -/
theorem marchFirst_parts {fours century cycle single : Int} (centuries : 0 ≤ century ∧ century ≤ 3)
    (cycles : 0 ≤ cycle ∧ cycle ≤ 24) (singles : 0 ≤ single ∧ single ≤ 3) :
    marchFirst (400 * fours + 100 * century + 4 * cycle + single) =
      146097 * fours + 36524 * century + 1461 * cycle + 365 * single - 305 := by
  have byFour : (400 * fours + 100 * century + 4 * cycle + single) / 4 =
      100 * fours + 25 * century + cycle := by omega
  have byCentury : (400 * fours + 100 * century + 4 * cycle + single) / 100 =
      4 * fours + century := by omega
  have byFours : (400 * fours + 100 * century + 4 * cycle + single) / 400 = fours := by omega
  unfold marchFirst
  rw [byFour, byCentury, byFours]
  omega

theorem marchFirst_succ (year : Int) :
    marchFirst (year + 1) = marchFirst year + 365 + if isLeap (year + 1) then 1 else 0 := by
  unfold marchFirst
  split
  · have leap := (isLeap_iff (year + 1)).mp ‹_›
    omega
  · have common := mt (isLeap_iff (year + 1)).mpr ‹_›
    omega

theorem marchFirst_lt {first second : Int} (before : first < second) :
    marchFirst first + 365 ≤ marchFirst second := by
  unfold marchFirst
  omega

namespace Date

theorem marchFirst_marchYear (date : Date) :
    marchFirst date.marchYear.1 + date.marchYear.2 = date.number := by
  have low := date.one_le
  have high := date.le_last
  unfold marchYear lastDay at *
  simp only
  rw [marchFirst_parts (by omega) (by omega) (by omega)]
  omega

theorem marchYear_bounds (date : Date) :
    (0 ≤ date.marchYear.1 ∧ date.marchYear.1 ≤ 9999) ∧
      0 ≤ date.marchYear.2 ∧ date.marchYear.2 ≤ 365 := by
  have low := date.one_le
  have high := date.le_last
  unfold marchYear lastDay at *
  simp only
  omega

theorem isLeap_of_marchYear (date : Date) (full : date.marchYear.2 = 365) :
    isLeap (date.marchYear.1 + 1) = true := by
  rw [isLeap_iff]
  unfold marchYear at *
  simp only at *
  have range : 0 ≤ (date.number + 305) % 146097 ∧ (date.number + 305) % 146097 < 146097 := by omega
  generalize (date.number + 305) / 146097 = fours at *
  generalize (date.number + 305) % 146097 = inFours at *
  generalize centuryEq : min (inFours / 36524) 3 = century at *
  generalize inCenturyEq : inFours - 36524 * century = inCentury at *
  generalize cycleEq : inCentury / 1461 = cycle at *
  generalize singleEq : min (inCentury % 1461 / 365) 3 = single at *
  have last : single = 3 := by omega
  subst last
  refine ⟨by omega, ?_⟩
  by_cases whole : cycle = 24
  · right; omega
  · left; omega

theorem marchYear_eq {date : Date} {year days : Int} (number : date.number = marchFirst year + days)
    (nonneg : 0 ≤ days) (within : days ≤ 364 ∨ days = 365 ∧ isLeap (year + 1) = true) :
    date.marchYear = (year, days) := by
  have sum := date.marchFirst_marchYear
  have bounds := date.marchYear_bounds
  have own : date.marchYear.1 = year := by
    rcases Int.lt_trichotomy date.marchYear.1 year with before | same | after
    · have step := marchFirst_succ date.marchYear.1
      have leap := date.isLeap_of_marchYear
      rcases Int.lt_or_eq_of_le (Int.add_one_le_iff.mpr before) with further | next
      · have := marchFirst_lt further
        split at step <;> omega
      · rw [next] at step leap
        by_cases full : date.marchYear.2 = 365
        · rw [if_pos (leap full)] at step; omega
        · split at step <;> omega
    · exact same
    · have step := marchFirst_succ year
      rcases Int.lt_or_eq_of_le (Int.add_one_le_iff.mpr after) with further | next
      · have := marchFirst_lt further
        split at step <;> omega
      · rw [next] at step within
        rcases within with short | ⟨full, leap⟩
        · split at step <;> omega
        · rw [if_pos leap] at step; omega
  have same : date.marchYear.2 = days := by rw [own] at sum; omega
  exact Prod.ext own same

theorem marchMonth_eq (date : Date) : date.marchMonth = (5 * date.marchYear.2 + 2) / 153 := rfl

theorem year_eq (date : Date) :
    date.year = if date.marchMonth < 10 then date.marchYear.1 else date.marchYear.1 + 1 := rfl

theorem month_eq (date : Date) :
    date.month = if date.marchMonth < 10 then date.marchMonth + 3 else date.marchMonth - 9 := rfl

theorem day_eq (date : Date) : date.day = date.marchYear.2 - daysFromMarch date.marchMonth + 1 := rfl

theorem year_bounds (date : Date) : 1 ≤ date.year ∧ date.year ≤ 9999 := by
  have low := date.one_le
  have high := date.le_last
  have sum := date.marchFirst_marchYear
  have bounds := date.marchYear_bounds
  have months := date.marchMonth_eq
  rw [year_eq]
  unfold marchFirst lastDay at *
  split <;> omega

theorem month_bounds (date : Date) : 1 ≤ date.month ∧ date.month ≤ 12 := by
  have bounds := date.marchYear_bounds
  have months := date.marchMonth_eq
  rw [month_eq]
  split <;> omega

theorem day_bounds (date : Date) : 1 ≤ date.day ∧ date.day ≤ monthLength date.year date.month := by
  have bounds := date.marchYear_bounds
  have months := date.marchMonth_eq
  have leap := date.isLeap_of_marchYear
  rw [day_eq, month_eq, year_eq]
  unfold daysFromMarch monthLength
  generalize date.marchMonth = passed at *
  by_cases early : passed < 10
  · simp only [if_pos early, Bool.or_eq_true, decide_eq_true_eq]
    split
    · omega
    · split <;> omega
  · simp only [if_neg early, Bool.or_eq_true, decide_eq_true_eq]
    split
    · split
      · omega
      · have : date.marchYear.2 ≠ 365 := fun full => ‹¬_› (leap full)
        omega
    · split <;> omega

theorem dayNumber_parts (date : Date) : dayNumber date.year date.month date.day = date.number := by
  have bounds := date.marchYear_bounds
  have months := date.marchMonth_eq
  rw [← date.marchFirst_marchYear, day_eq, month_eq, year_eq]
  unfold dayNumber
  by_cases early : date.marchMonth < 10
  · rw [if_pos early, if_pos early, if_pos (by omega), show date.marchMonth + 3 - 3 = date.marchMonth by
      omega]
    omega
  · rw [if_neg early, if_neg early, if_neg (by omega), show date.marchMonth - 9 + 9 = date.marchMonth by
      omega, show date.marchYear.1 + 1 - 1 = date.marchYear.1 by omega]
    omega

theorem exists_ofYmd {year month day : Int} (years : 1 ≤ year ∧ year ≤ 9999)
    (months : 1 ≤ month ∧ month ≤ 12) (days : 1 ≤ day ∧ day ≤ monthLength year month) :
    ∃ date, ofYmd year month day = .ok date ∧ date.number = dayNumber year month day := by
  have length := monthLength_le year month
  have words : (isWord year && isWord month && isWord day) = true := by
    simp [isWord, wordLimit]
    omega
  simp only [ofYmd, words, years, months, days, and_self, Bool.not_true, Bool.false_eq_true, if_false,
    dite_true]
  exact ⟨_, rfl, rfl⟩

theorem ofYmd_parts (date : Date) : ofYmd date.year date.month date.day = .ok date := by
  obtain ⟨named, found, number⟩ := exists_ofYmd date.year_bounds date.month_bounds date.day_bounds
  rw [found, eq_of_number (number.trans date.dayNumber_parts)]

theorem number_of_ofYmd {year month day : Int} {date : Date}
    (named : ofYmd year month day = .ok date) :
    date.number = dayNumber year month day ∧ (1 ≤ month ∧ month ≤ 12) ∧
      1 ≤ day ∧ day ≤ monthLength year month := by
  unfold ofYmd at named
  split at named
  · cases named
  · split at named
    · split at named
      · split at named
        · cases named
          exact ⟨rfl, ‹_›, ‹_›⟩
        · cases named
      · cases named
    · cases named

theorem parts_of_ofYmd {year month day : Int} {date : Date}
    (named : ofYmd year month day = .ok date) :
    date.year = year ∧ date.month = month ∧ date.day = day := by
  obtain ⟨number, months, days⟩ := number_of_ofYmd named
  unfold dayNumber daysFromMarch at number
  unfold monthLength at days
  simp only [Bool.or_eq_true, decide_eq_true_eq] at days
  rw [day_eq, month_eq, year_eq, marchMonth_eq]
  unfold daysFromMarch
  by_cases late : 2 < month
  · rw [if_pos late] at number
    rw [if_neg (by omega)] at days
    have sinceMarch : day ≤ 30 ∨ day = 31 ∧ month ≠ 4 ∧ month ≠ 6 ∧ month ≠ 9 ∧ month ≠ 11 := by
      split at days <;> omega
    rw [@marchYear_eq date year ((153 * (month - 3) + 2) / 5 + day - 1) (by omega) (by omega)
      (by omega)]
    simp only
    have each : month = 3 ∨ month = 4 ∨ month = 5 ∨ month = 6 ∨ month = 7 ∨ month = 8 ∨ month = 9 ∨
      month = 10 ∨ month = 11 ∨ month = 12 := by omega
    rcases each with rfl | rfl | rfl | rfl | rfl | rfl | rfl | rfl | rfl | rfl <;> split <;> omega
  · rw [if_neg late] at number
    have short : day ≤ 28 ∨ day ≤ 31 ∧ month = 1 ∨ day = 29 ∧ isLeap year = true := by
      split at days
      · split at days
        · by_cases full : day = 29
          · exact .inr (.inr ⟨full, ‹_›⟩)
          · omega
        · omega
      · split at days <;> omega
    rw [@marchYear_eq date (year - 1) ((153 * (month + 9) + 2) / 5 + day - 1)
      (by omega) (by omega)
      (by
        rw [show year - 1 + 1 = year by omega]
        rcases short with short | short | short
        · left; omega
        · left; omega
        · by_cases february : month = 2
          · right; exact ⟨by omega, short.2⟩
          · left; omega)]
    simp only
    split <;> omega

end Date

end FeastCalendar.Civil
