import FeastCalendar.Civil.Parts
import FeastCalendar.Civil.Weekday
import FeastCalendar.Easter

/-!
Easter and the moon. The epact of a year gives its paschal full moon, and Easter is the first
Sunday after it, in every year. The years that the calendar holds have their Easter from 22 March
to 25 April.
-/

namespace FeastCalendar.Easter
open Civil

/-- The place of a year in the moon's cycle of nineteen years, from 1. -/
def goldenNumber (year : Int) : Int := year % 19 + 1

def centuryNumber (year : Int) : Int := year / 100 + 1

/-- The leap days that full centuries have dropped. -/
def solarCorrection (year : Int) : Int := 3 * centuryNumber year / 4 - 12

/-- The days by which the moon has run ahead of its cycle. -/
def lunarCorrection (year : Int) : Int := (8 * centuryNumber year + 5) / 25 - 5

def plainEpact (year : Int) : Int :=
  (11 * goldenNumber year + 20 + lunarCorrection year - solarCorrection year) % 30

/-- The age of the moon when the year begins. Two ages are raised by a day, one of them only late
in the cycle. -/
def epact (year : Int) : Int :=
  if plainEpact year = 24 ∨ plainEpact year = 25 ∧ 11 < goldenNumber year then plainEpact year + 1
  else plainEpact year

/-- The paschal full moon, counted from 1 March as day 1. -/
def fullMoon (year : Int) : Int :=
  let days := 44 - epact year
  if days < 21 then days + 30 else days

def fromMarch (year days : Int) : Int := dayNumber year 3 1 + (days - 1)

/-- Sundays are the days whose numbers seven divides. -/
def IsFirstSundayAfter (moon day : Int) : Prop :=
  moon < day ∧ day % 7 = 0 ∧ ∀ sunday, moon < sunday → sunday % 7 = 0 → day ≤ sunday

def moonDays (year : Int) : Int :=
  (19 * (year % 19) + year / 100 - year / 100 / 4 - (year / 100 - (year / 100 + 8) / 25 + 1) / 3 +
    15) % 30

def weekDays (year : Int) : Int :=
  (32 + 2 * (year / 100 % 4) + 2 * (year % 100 / 4) - moonDays year - year % 100 % 4) % 7

abbrev Raised (year : Int) : Prop := moonDays year = 29 ∨ moonDays year = 28 ∧ 11 ≤ year % 19

def marchDays (year : Int) : Int :=
  moonDays year + weekDays year -
    7 * ((year % 19 + 11 * moonDays year + 22 * weekDays year) / 451) + 22

theorem moonDays_bounds (year : Int) : 0 ≤ moonDays year ∧ moonDays year < 30 := by
  unfold moonDays
  omega

theorem weekDays_bounds (year : Int) : 0 ≤ weekDays year ∧ weekDays year < 7 := by
  unfold weekDays
  omega

private theorem lunar_thirds (century : Int) :
    (century - (century + 8) / 25 + 1) / 3 = (8 * (century + 1) + 5) / 25 := by
  omega

private theorem solar_quarters (century : Int) :
    century - century / 4 = 3 * (century + 1) / 4 := by
  omega

theorem plainEpact_eq (year : Int) :
    plainEpact year = if moonDays year ≤ 23 then 23 - moonDays year else 53 - moonDays year := by
  have quarters := solar_quarters (year / 100)
  unfold plainEpact lunarCorrection solarCorrection centuryNumber goldenNumber moonDays
  rw [lunar_thirds (year / 100)]
  generalize 3 * (year / 100 + 1) / 4 = solar at *
  generalize (8 * (year / 100 + 1) + 5) / 25 = lunar at *
  omega

theorem fullMoon_eq (year : Int) :
    fullMoon year = 21 + moonDays year - if Raised year then 1 else 0 := by
  have plain := plainEpact_eq year
  have bounds := moonDays_bounds year
  unfold fullMoon epact goldenNumber
  simp only
  split at plain <;> split <;> split <;> split <;> omega

/-- The quotient takes a week back just when the epact is raised and the Sunday falls on the last
day it can. -/
theorem marchDays_eq (year : Int) :
    marchDays year =
      22 + moonDays year + weekDays year - if weekDays year = 6 ∧ Raised year then 7 else 0 := by
  have moon := moonDays_bounds year
  have week := weekDays_bounds year
  have golden : 0 ≤ year % 19 ∧ year % 19 < 19 := by omega
  have quotient : (year % 19 + 11 * moonDays year + 22 * weekDays year) / 451 =
      if weekDays year = 6 ∧ Raised year then 1 else 0 := by
    split <;> omega
  unfold marchDays
  rw [quotient]
  split <;> omega

theorem fromMarch_mod (year days : Int) :
    fromMarch year days % 7 =
      (5 * (year / 100 % 4) + 5 * (year % 100 / 4) + year % 100 % 4 + days + 2) % 7 := by
  have byFour : year / 4 = 25 * (year / 100) + year % 100 / 4 := by omega
  have byFours : year / 400 = year / 100 / 4 := by omega
  unfold fromMarch dayNumber marchFirst daysFromMarch
  rw [byFour, byFours, if_pos (by decide)]
  omega

theorem sunday_mod (year : Int) : fromMarch year (22 + moonDays year + weekDays year) % 7 = 0 := by
  rw [fromMarch_mod]
  unfold weekDays
  omega

theorem marchDays_isFirstSundayAfter (year : Int) :
    IsFirstSundayAfter (fromMarch year (fullMoon year)) (fromMarch year (marchDays year)) := by
  have week := weekDays_bounds year
  have sunday := sunday_mod year
  rw [fullMoon_eq, marchDays_eq]
  unfold fromMarch IsFirstSundayAfter at *
  refine ⟨?_, ?_, ?_⟩
  · split <;> split <;> omega
  · split <;> omega
  · intro other after divides
    split <;> split at after <;> omega

theorem marchDays_bounds (year : Int) : 22 ≤ marchDays year ∧ marchDays year ≤ 56 := by
  have moon := moonDays_bounds year
  have week := weekDays_bounds year
  rw [marchDays_eq]
  split <;> omega

theorem monthDay_eq (year : Int) :
    monthDay year = if marchDays year ≤ 31 then (3, marchDays year) else (4, marchDays year - 31) := by
  have bounds := marchDays_bounds year
  have parts : monthDay year =
      ((marchDays year + 92) / 31, (marchDays year + 92) % 31 + 1) := by
    have sum : marchDays year + 92 = moonDays year + weekDays year -
        7 * ((year % 19 + 11 * moonDays year + 22 * weekDays year) / 451) + 114 := by
      unfold marchDays
      omega
    rw [sum]
    rfl
  rw [parts]
  split
  · exact Prod.ext (by simp only; omega) (by simp only; omega)
  · exact Prod.ext (by simp only; omega) (by simp only; omega)

theorem dayNumber_monthDay (year : Int) :
    dayNumber year (monthDay year).1 (monthDay year).2 = fromMarch year (marchDays year) := by
  rw [monthDay_eq]
  unfold fromMarch dayNumber daysFromMarch
  split <;> simp <;> omega

def InWindow (month day : Int) : Prop := month = 3 ∧ 22 ≤ day ∧ day ≤ 31 ∨ month = 4 ∧ 1 ≤ day ∧ day ≤ 25

theorem monthDay_inWindow (year : Int) : InWindow (monthDay year).1 (monthDay year).2 := by
  have bounds := marchDays_bounds year
  rw [monthDay_eq]
  unfold InWindow
  split <;> simp <;> omega

theorem sunday_eq_ok {year : Int} (held : 1 ≤ year ∧ year ≤ 9999) :
    ∃ date, sunday year = .ok date ∧ date.year = year ∧ (date.month, date.day) = monthDay year ∧
      date.number = fromMarch year (marchDays year) := by
  have months : 1 ≤ (monthDay year).1 ∧ (monthDay year).1 ≤ 12 := by
    have window := monthDay_inWindow year
    unfold InWindow at window
    omega
  have days : 1 ≤ (monthDay year).2 ∧ (monthDay year).2 ≤ monthLength year (monthDay year).1 := by
    rcases monthDay_inWindow year with ⟨march, bounds⟩ | ⟨april, bounds⟩
    · rw [march, show monthLength year 3 = 31 from rfl]
      omega
    · rw [april, show monthLength year 4 = 30 from rfl]
      omega
  obtain ⟨date, named, number⟩ := Date.exists_ofYmd held months days
  have parts := Date.parts_of_ofYmd named
  refine ⟨date, ?_, parts.1, Prod.ext parts.2.1 parts.2.2, ?_⟩
  · rw [sunday, if_pos held, named]
    rfl
  · rw [number, dayNumber_monthDay]

/-- Month and day reckoned from any year are the first Sunday after the paschal full moon. In the
years that the calendar holds they are a date, so Easter never fails there. -/
theorem monthDay_firstSundayAfterFullMoon (year : Int) :
    InWindow (monthDay year).1 (monthDay year).2 ∧
      IsFirstSundayAfter (fromMarch year (fullMoon year))
        (dayNumber year (monthDay year).1 (monthDay year).2) ∧
      (1 ≤ year ∧ year ≤ 9999 → ∃ date, ofYear (.int year) = .ok date ∧ date.year = year ∧
        (date.month, date.day) = monthDay year ∧ InWindow date.month date.day ∧ date.weekday = 0 ∧
        IsFirstSundayAfter (fromMarch year (fullMoon year)) date.number) := by
  have first := marchDays_isFirstSundayAfter year
  have window := monthDay_inWindow year
  refine ⟨window, ?_, ?_⟩
  · rw [dayNumber_monthDay]
    exact first
  · intro held
    obtain ⟨date, found, own, parts, number⟩ := sunday_eq_ok held
    rw [← number] at first
    rw [← parts] at window
    exact ⟨date, found, own, parts, window, first.2.1, first⟩

/-- In 1981 the raised epact puts the full moon on 18 April, a Saturday, and not on a Sunday. -/
theorem easter_1981 :
    (1 ≤ (1981 : Int) ∧ (1981 : Int) ≤ 9999) ∧ plainEpact 1981 = 24 ∧ fullMoon 1981 = 49 ∧
      ∃ date, ofYear (.int 1981) = .ok date ∧ (date.month, date.day) = (4, 19) ∧ date.weekday = 0 := by
  obtain ⟨date, found, -, parts, -, sunday, -⟩ :=
    (monthDay_firstSundayAfterFullMoon 1981).2.2 (by decide)
  exact ⟨by decide, by decide, by decide, date, found, parts.trans (by decide), sunday⟩

end FeastCalendar.Easter
