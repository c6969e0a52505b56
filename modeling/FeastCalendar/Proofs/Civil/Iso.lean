import Mathlib.Data.String.Basic
import FeastCalendar.Civil.Iso
import FeastCalendar.Civil.Parts
import FeastCalendar.Proofs.Text.Numeral

/-!
The order of dates, by their parts and by their texts. Each of the three parts has its fixed width,
so a later date has a later text.
-/

namespace FeastCalendar

theorem Civil.dayNumber_eq_first (year month day : Int) :
    dayNumber year month day = dayNumber year month 1 + day - 1 := by
  unfold dayNumber
  split <;> omega

namespace Civil.Date

theorem dayNumber_lt_of_year_lt {year other month otherMonth day otherDay : Int}
    (earlier : year < other) (months : 1 ≤ month ∧ month ≤ 12) (days : day ≤ 31)
    (otherMonths : 1 ≤ otherMonth ∧ otherMonth ≤ 12) (otherDays : 1 ≤ otherDay) :
    dayNumber year month day < dayNumber other otherMonth otherDay := by
  have last : dayNumber year month day ≤ marchFirst year + 305 := by
    unfold dayNumber daysFromMarch marchFirst
    split <;> omega
  have first : marchFirst (other - 1) + 306 ≤ dayNumber other otherMonth otherDay := by
    unfold dayNumber daysFromMarch marchFirst
    split <;> omega
  have order : marchFirst year ≤ marchFirst (other - 1) := by
    unfold marchFirst
    omega
  omega

theorem dayNumber_lt_of_month_lt {year month otherMonth day otherDay : Int}
    (earlier : month < otherMonth) (months : 1 ≤ month) (days : day ≤ monthLength year month)
    (otherMonths : otherMonth ≤ 12) (otherDays : 1 ≤ otherDay) :
    dayNumber year month day < dayNumber year otherMonth otherDay := by
  have march := marchFirst_succ (year - 1)
  rw [show year - 1 + 1 = year by omega] at march
  unfold monthLength at days
  simp only [Bool.or_eq_true, decide_eq_true_eq] at days
  unfold dayNumber daysFromMarch
  by_cases winter : month ≤ 2
  · by_cases february : month = 2
    · subst february
      rw [if_pos rfl] at days
      rw [if_neg (by decide), if_pos earlier]
      by_cases leap : isLeap year = true
      · rw [if_pos leap] at march days
        omega
      · rw [if_neg leap] at march days
        omega
    · rw [if_neg february] at days
      split at march <;> split at days <;> split <;> split <;> omega
  · rw [if_neg (by omega : ¬month = 2)] at days
    rw [if_pos (by omega), if_pos (by omega)]
    have each : month = 3 ∨ month = 4 ∨ month = 5 ∨ month = 6 ∨ month = 7 ∨ month = 8 ∨ month = 9 ∨
      month = 10 ∨ month = 11 := by omega
    rcases each with rfl | rfl | rfl | rfl | rfl | rfl | rfl | rfl | rfl <;> split at days <;> omega

theorem dayNumber_year_bounds {year month day : Int} (months : 1 ≤ month ∧ month ≤ 12)
    (days : 1 ≤ day ∧ day ≤ monthLength year month) :
    dayNumber year 1 1 ≤ dayNumber year month day ∧
      dayNumber year month day ≤ dayNumber year 12 31 := by
  have within := dayNumber_eq_first year month day
  have december := dayNumber_eq_first year 12 31
  have length := monthLength_le year month
  constructor
  · by_cases january : month = 1
    · rw [january] at within ⊢
      omega
    · have later : dayNumber year 1 1 < dayNumber year month day :=
        dayNumber_lt_of_month_lt (by omega) (by decide) (by decide : (1 : Int) ≤ 31) months.2 days.1
      omega
  · by_cases last : month = 12
    · rw [last] at within ⊢
      omega
    · have earlier : dayNumber year month day < dayNumber year 12 31 :=
        dayNumber_lt_of_month_lt (by omega) months.1 days.2 (by decide) (by decide)
      omega

theorem number_lt_newYear {date : Date} {year : Int} (later : date.year < year) :
    date.number < dayNumber year 1 1 := by
  have length := monthLength_le date.year date.month
  rw [← date.dayNumber_parts]
  exact dayNumber_lt_of_year_lt later date.month_bounds (Int.le_trans date.day_bounds.2 length)
    (by decide) (by decide)

theorem year_eq_iff {date : Date} {year : Int} :
    date.year = year ↔ dayNumber year 1 1 ≤ date.number ∧ date.number ≤ dayNumber year 12 31 := by
  constructor
  · rintro rfl
    rw [← date.dayNumber_parts]
    exact dayNumber_year_bounds date.month_bounds date.day_bounds
  · rintro ⟨begun, notOver⟩
    rcases Int.lt_trichotomy date.year year with before | same | after
    · have early := number_lt_newYear before
      omega
    · exact same
    · have late : dayNumber year 12 31 < dayNumber date.year date.month date.day :=
        dayNumber_lt_of_year_lt after (by decide) (by decide) date.month_bounds date.day_bounds.1
      rw [date.dayNumber_parts] at late
      omega

/-- Dates that differ do so in the year, or in the month of one year, or in the day of one month. -/
theorem parts_lt_of_lt {left right : Date} (before : left < right) :
    left.year < right.year ∨ left.year = right.year ∧
      (left.month < right.month ∨ left.month = right.month ∧ left.day < right.day) := by
  have leftMonths := left.month_bounds
  have rightMonths := right.month_bounds
  have leftDays := left.day_bounds
  have rightDays := right.day_bounds
  have rightLength := monthLength_le right.year right.month
  rw [lt_iff, ← left.dayNumber_parts, ← right.dayNumber_parts] at before
  rcases Int.lt_trichotomy left.year right.year with year | year | year
  · exact Or.inl year
  · refine Or.inr ⟨year, ?_⟩
    rw [year] at before
    rcases Int.lt_trichotomy left.month right.month with month | month | month
    · exact Or.inl month
    · refine Or.inr ⟨month, ?_⟩
      rw [month] at before
      unfold dayNumber at before
      split at before <;> omega
    · have after := dayNumber_lt_of_month_lt month rightMonths.1 rightDays.2 leftMonths.2 leftDays.1
      omega
  · have after := dayNumber_lt_of_year_lt year rightMonths
      (Int.le_trans rightDays.2 rightLength) leftMonths leftDays.1
    omega

theorem toList_iso (date : Date) :
    date.iso.toList = Text.padded 4 date.year.toNat ++ '-' ::
      (Text.padded 2 date.month.toNat ++ '-' :: Text.padded 2 date.day.toNat) := by
  have years := date.year_bounds
  have months := date.month_bounds
  have days := date.day_bounds
  simp only [iso, String.toList_append, Text.toList_zeroPadded 4 (Int.le_trans (by decide) years.1),
    Text.toList_zeroPadded 2 (Int.le_trans (by decide) months.1),
    Text.toList_zeroPadded 2 (Int.le_trans (by decide) days.1)]
  simp

theorem iso_lt_of_lt {left right : Date} (before : left < right) : left.iso < right.iso := by
  have leftYears := left.year_bounds
  have rightYears := right.year_bounds
  have leftMonths := left.month_bounds
  have rightMonths := right.month_bounds
  have leftDays := left.day_bounds
  have rightDays := right.day_bounds
  have leftLength := monthLength_le left.year left.month
  have rightLength := monthLength_le right.year right.month
  rw [String.lt_iff_toList_lt, toList_iso, toList_iso]
  rcases parts_lt_of_lt before with year | ⟨sameYear, month | ⟨sameMonth, day⟩⟩
  · apply Text.append_lt_append
    · rw [Text.length_padded (by decide) (by omega), Text.length_padded (by decide) (by omega)]
    · exact Text.padded_lt (by decide) (by omega) (by omega)
  · rw [sameYear]
    apply Text.append_left_lt
    refine List.cons_lt_cons_iff.mpr (Or.inr ⟨rfl, ?_⟩)
    apply Text.append_lt_append
    · rw [Text.length_padded (by decide) (by omega), Text.length_padded (by decide) (by omega)]
    · exact Text.padded_lt (by decide) (by omega) (by omega)
  · rw [sameYear, sameMonth]
    apply Text.append_left_lt
    refine List.cons_lt_cons_iff.mpr (Or.inr ⟨rfl, ?_⟩)
    apply Text.append_left_lt
    refine List.cons_lt_cons_iff.mpr (Or.inr ⟨rfl, ?_⟩)
    exact Text.padded_lt (by decide) (by omega) (by omega)

end Civil.Date

end FeastCalendar
