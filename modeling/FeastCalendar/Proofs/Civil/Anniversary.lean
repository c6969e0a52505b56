import FeastCalendar.Proofs.Civil.Iso
import FeastCalendar.Proofs.Civil.Weekday

/-!
Days that come back each year. With years counted from March to March a leap day is the last of its
year, so that two days lie as far apart as their places in the year say, and a day further if a leap
day lies between them. The last time that a day came before another is in the same year, or in the
year before if it comes later in the year.
-/

namespace FeastCalendar.Civil

def ComesAfter (month day otherMonth otherDay : Int) : Prop :=
  otherMonth < month ∨ otherMonth = month ∧ otherDay < day

instance (month day otherMonth otherDay : Int) :
    Decidable (ComesAfter month day otherMonth otherDay) :=
  inferInstanceAs (Decidable (_ ∨ _))

/-- The year of the last 1 March before a day of a month. -/
def marchYearOf (year month : Int) : Int := if 2 < month then year else year - 1

def sinceMarch (month day : Int) : Int :=
  daysFromMarch (if 2 < month then month - 3 else month + 9) + day - 1

theorem dayNumber_eq (year month day : Int) :
    dayNumber year month day = marchFirst (marchYearOf year month) + sinceMarch month day := by
  unfold dayNumber marchYearOf sinceMarch
  split <;> omega

theorem sinceMarch_bounds {month day : Int} (months : 1 ≤ month ∧ month ≤ 12)
    (days : 1 ≤ day ∧ day ≤ monthLength 1 month) :
    0 ≤ sinceMarch month day ∧ sinceMarch month day ≤ 364 := by
  unfold monthLength at days
  rw [show isLeap 1 = false from rfl, if_neg Bool.false_ne_true] at days
  simp only [Bool.or_eq_true, decide_eq_true_eq] at days
  unfold sinceMarch daysFromMarch
  split at days
  · split <;> omega
  · split at days <;> split <;> omega

theorem sinceMarch_winter_iff {month day : Int} (months : 1 ≤ month ∧ month ≤ 12)
    (days : 1 ≤ day ∧ day ≤ monthLength 1 month) : 306 ≤ sinceMarch month day ↔ month ≤ 2 := by
  have length := monthLength_le 1 month
  unfold sinceMarch daysFromMarch
  split <;> omega

theorem sinceMarch_lt {month day otherMonth otherDay : Int} (months : 1 ≤ month ∧ month ≤ 12)
    (otherMonths : 1 ≤ otherMonth ∧ otherMonth ≤ 12) (days : day ≤ monthLength 1 month)
    (otherDays : 1 ≤ otherDay) (after : ComesAfter otherMonth otherDay month day)
    (same : 2 < month ↔ 2 < otherMonth) :
    sinceMarch month day < sinceMarch otherMonth otherDay := by
  rcases after with earlier | ⟨rfl, earlier⟩
  · have order := Date.dayNumber_lt_of_month_lt earlier months.1 days otherMonths.2 otherDays
    rw [dayNumber_eq, dayNumber_eq] at order
    unfold marchYearOf at order
    simp only [same] at order
    omega
  · unfold sinceMarch
    omega

namespace Date

theorem lt_of_year_lt {left right : Date} (earlier : left.year < right.year) : left < right := by
  have length := monthLength_le left.year left.month
  rw [lt_iff, ← left.dayNumber_parts, ← right.dayNumber_parts]
  exact dayNumber_lt_of_year_lt earlier left.month_bounds (Int.le_trans left.day_bounds.2 length)
    right.month_bounds right.day_bounds.1

theorem dayNumber_lt_of_comesAfter {year month otherMonth day otherDay : Int} (months : 1 ≤ month)
    (days : day ≤ monthLength year month) (otherMonths : otherMonth ≤ 12) (otherDays : 1 ≤ otherDay)
    (after : ComesAfter otherMonth otherDay month day) :
    dayNumber year month day < dayNumber year otherMonth otherDay := by
  rcases after with earlier | ⟨rfl, earlier⟩
  · exact dayNumber_lt_of_month_lt earlier months days otherMonths otherDays
  · unfold dayNumber
    split <;> omega

theorem lt_iff_of_ofYmd {year month otherMonth day otherDay : Int} {left right : Date}
    (leftNamed : ofYmd year month day = .ok left)
    (rightNamed : ofYmd year otherMonth otherDay = .ok right) :
    left < right ↔ ComesAfter otherMonth otherDay month day := by
  obtain ⟨leftNumber, leftMonths, leftDays⟩ := number_of_ofYmd leftNamed
  obtain ⟨rightNumber, rightMonths, rightDays⟩ := number_of_ofYmd rightNamed
  unfold ComesAfter
  constructor
  · intro before
    obtain ⟨leftYear, leftMonth, leftDay⟩ := parts_of_ofYmd leftNamed
    obtain ⟨rightYear, rightMonth, rightDay⟩ := parts_of_ofYmd rightNamed
    have parts := parts_lt_of_lt before
    omega
  · rw [lt_iff, leftNumber, rightNumber]
    exact dayNumber_lt_of_comesAfter leftMonths.1 leftDays.2 rightMonths.2 rightDays.1

def IsLeapDay (date : Date) : Prop := date.month = 2 ∧ date.day = 29

def LeapDayBetween (first last : Date) : Prop :=
  ∃ leap : Date, leap.IsLeapDay ∧ first ≤ leap ∧ leap ≤ last

theorem isLeapDay_iff {date : Date} : date.IsLeapDay ↔ date.marchYear.2 = 365 := by
  have bounds := date.marchYear_bounds
  unfold IsLeapDay
  rw [month_eq, day_eq, marchMonth_eq]
  unfold daysFromMarch
  split <;> omega

theorem IsLeapDay.isLeap_year {date : Date} (leap : date.IsLeapDay) : isLeap date.year = true := by
  have days := date.day_bounds
  rw [leap.1, leap.2] at days
  by_contra common
  have short : monthLength date.year 2 = 28 := by simp [monthLength, common]
  omega

theorem marchYear_of_ofYmd {year month day : Int} {date : Date}
    (named : ofYmd year month day = .ok date) (common : day ≤ monthLength 1 month) :
    date.marchYear = (marchYearOf year month, sinceMarch month day) := by
  obtain ⟨number, months, days⟩ := number_of_ofYmd named
  have bounds := sinceMarch_bounds months ⟨days.1, common⟩
  exact marchYear_eq (number.trans (dayNumber_eq year month day)) bounds.1 (Or.inl bounds.2)

theorem not_isLeapDay_of_ofYmd {year month day : Int} {date : Date}
    (named : ofYmd year month day = .ok date) (common : day ≤ monthLength 1 month) :
    ¬date.IsLeapDay := by
  obtain ⟨-, months, days⟩ := number_of_ofYmd named
  have bounds := sinceMarch_bounds months ⟨days.1, common⟩
  rw [isLeapDay_iff, marchYear_of_ofYmd named common]
  simp only
  omega

theorem number_lt_marchFirst (date : Date) :
    date.number < marchFirst (date.marchYear.1 + 1) := by
  have sum := date.marchFirst_marchYear
  have bounds := date.marchYear_bounds
  have step := marchFirst_succ date.marchYear.1
  by_cases full : date.marchYear.2 = 365
  · rw [if_pos (date.isLeap_of_marchYear full)] at step
    omega
  · split at step <;> omega

theorem marchYear_le_of_le {first last : Date} (before : first ≤ last) :
    first.marchYear.1 ≤ last.marchYear.1 := by
  by_contra later
  have order : marchFirst (last.marchYear.1 + 1) ≤ marchFirst first.marchYear.1 := by
    unfold marchFirst
    omega
  have firstSum := first.marchFirst_marchYear
  have firstBounds := first.marchYear_bounds
  have lastBelow := last.number_lt_marchFirst
  rw [le_iff] at before
  omega

theorem isLeapDay_of_number {leap : Date} {year : Int} (leapYear : isLeap year = true)
    (number : leap.number = marchFirst year - 1) : leap.IsLeapDay := by
  have step := marchFirst_succ (year - 1)
  rw [Int.sub_add_cancel, if_pos leapYear] at step
  have place : leap.marchYear = (year - 1, 365) := by
    apply marchYear_eq (by omega) (by omega)
    exact Or.inr ⟨rfl, by rwa [Int.sub_add_cancel]⟩
  rw [isLeapDay_iff, place]

/-- Up to a date that is no leap day, and from a date of its March year or the one before, lies a
leap day just if 1 March of a leap year is passed. -/
theorem leapDayBetween_iff {first last : Date} (lastCommon : ¬last.IsLeapDay)
    (near : last.marchYear.1 ≤ first.marchYear.1 + 1) :
    LeapDayBetween first last ↔
      last.marchYear.1 = first.marchYear.1 + 1 ∧ isLeap last.marchYear.1 = true := by
  have firstSum := first.marchFirst_marchYear
  have lastSum := last.marchFirst_marchYear
  have firstBounds := first.marchYear_bounds
  have lastBounds := last.marchYear_bounds
  rw [isLeapDay_iff] at lastCommon
  constructor
  · rintro ⟨leap, isLeapDay, after, before⟩
    have place := isLeapDay_iff.mp isLeapDay
    have leapSum := leap.marchFirst_marchYear
    have notEarlier := marchYear_le_of_le after
    have notLater := marchYear_le_of_le before
    rw [le_iff] at before
    -- In the last date's own year the leap day would come after it.
    have passed : leap.marchYear.1 ≠ last.marchYear.1 := by
      intro same
      rw [same] at leapSum
      omega
    have next : last.marchYear.1 = leap.marchYear.1 + 1 := by omega
    refine ⟨by omega, ?_⟩
    rw [next]
    exact leap.isLeap_of_marchYear place
  · rintro ⟨next, leapYear⟩
    have step := marchFirst_succ first.marchYear.1
    rw [← next, if_pos leapYear] at step
    have low := first.one_le
    have high := last.le_last
    obtain ⟨leap, -, number⟩ := exists_ofNumber? (n := marchFirst last.marchYear.1 - 1)
      ⟨by omega, by omega⟩
    refine ⟨leap, isLeapDay_of_number leapYear number, ?_, ?_⟩
    · rw [le_iff]
      omega
    · rw [le_iff]
      omega

theorem daysTo_eq {first last : Date} (lastCommon : ¬last.IsLeapDay)
    (notBefore : first.marchYear.1 ≤ last.marchYear.1)
    (near : last.marchYear.1 ≤ first.marchYear.1 + 1) :
    (LeapDayBetween first last → first.daysTo last =
        365 * (last.marchYear.1 - first.marchYear.1) + last.marchYear.2 - first.marchYear.2 + 1) ∧
      (¬LeapDayBetween first last → first.daysTo last =
        365 * (last.marchYear.1 - first.marchYear.1) + last.marchYear.2 - first.marchYear.2) := by
  have firstSum := first.marchFirst_marchYear
  have lastSum := last.marchFirst_marchYear
  have step := marchFirst_succ first.marchYear.1
  rw [leapDayBetween_iff lastCommon near, daysTo]
  rcases Int.lt_or_eq_of_le notBefore with passed | same
  · have next : last.marchYear.1 = first.marchYear.1 + 1 := by omega
    rw [← next] at step
    by_cases leapYear : isLeap last.marchYear.1 = true
    · rw [if_pos leapYear] at step
      exact ⟨fun _ => by omega, fun none => absurd ⟨next, leapYear⟩ none⟩
    · rw [if_neg leapYear] at step
      exact ⟨fun between => absurd between.2 leapYear, fun _ => by omega⟩
  · rw [same] at firstSum
    exact ⟨fun between => by omega, fun _ => by omega⟩

end Date

section Anniversaries

variable {month day lastMonth lastDay lastYear : Int} {date last : Date}

def yearBefore (month day lastMonth lastDay lastYear : Int) : Int :=
  if ComesAfter month day lastMonth lastDay then lastYear - 1 else lastYear

/-- The days from a day to the next of another, where there is no leap day. -/
def commonSpan (month day lastMonth lastDay : Int) : Int :=
  365 * (marchYearOf 0 lastMonth - marchYearOf (yearBefore month day lastMonth lastDay 0) month) +
    sinceMarch lastMonth lastDay - sinceMarch month day

structure Date.LatestUpTo (month day : Int) (last date : Date) : Prop where
  onMonth : date.month = month
  onDay : date.day = day
  notAfter : date ≤ last
  latest : ∀ other : Date, other.month = month → other.day = day → other ≤ last → other ≤ date

theorem Date.year_le_of_lt {other : Date} (sameMonth : date.month = other.month)
    (sameDay : date.day = other.day) (before : date < other) : date.number + 365 ≤ other.number := by
  have parts := parts_lt_of_lt before
  have years : marchYearOf date.year other.month < marchYearOf other.year other.month := by
    unfold marchYearOf
    split <;> omega
  have apart := marchFirst_lt years
  rw [← date.dayNumber_parts, ← other.dayNumber_parts, sameMonth, sameDay, dayNumber_eq,
    dayNumber_eq]
  omega

theorem dayNumber_nextYear_le (year month day : Int) :
    dayNumber (year + 1) month day ≤ dayNumber year month day + 366 := by
  have years : marchYearOf (year + 1) month = marchYearOf year month + 1 := by
    unfold marchYearOf
    split <;> omega
  have step := marchFirst_succ (marchYearOf year month)
  rw [dayNumber_eq, dayNumber_eq, years]
  split at step <;> omega

theorem Date.LatestUpTo.eq {other : Date} (latest : LatestUpTo month day last date)
    (also : LatestUpTo month day last other) : date = other := by
  have before := also.latest date latest.onMonth latest.onDay latest.notAfter
  have after := latest.latest other also.onMonth also.onDay also.notAfter
  rw [le_iff] at before after
  rw [ext_iff]
  omega

theorem Date.LatestUpTo.eq_iff_day {other : Date} (latest : LatestUpTo month day last date)
    (notAfter : other ≤ last) (near : other.daysTo last ≤ 364) :
    date = other ↔ other.month = month ∧ other.day = day := by
  constructor
  · rintro rfl
    exact ⟨latest.onMonth, latest.onDay⟩
  · rintro ⟨sameMonth, sameDay⟩
    by_contra different
    have notLater := latest.latest other sameMonth sameDay notAfter
    have before : other < date := by
      rw [ext_iff] at different
      rw [le_iff] at notLater
      rw [lt_iff]
      omega
    have apart := year_le_of_lt (sameMonth.trans latest.onMonth.symm)
      (sameDay.trans latest.onDay.symm) before
    have latestBefore := latest.notAfter
    rw [le_iff] at latestBefore
    unfold daysTo at near
    omega

theorem yearBefore_bounds (years : 2 ≤ lastYear ∧ lastYear ≤ 9999) :
    1 ≤ yearBefore month day lastMonth lastDay lastYear ∧
      yearBefore month day lastMonth lastDay lastYear ≤ 9999 := by
  unfold yearBefore
  split <;> omega

theorem marchYearOf_yearBefore (month day lastMonth lastDay lastYear : Int) :
    marchYearOf lastYear lastMonth -
        marchYearOf (yearBefore month day lastMonth lastDay lastYear) month =
      marchYearOf 0 lastMonth - marchYearOf (yearBefore month day lastMonth lastDay 0) month := by
  unfold marchYearOf yearBefore
  split <;> split <;> split <;> omega

theorem marchYearOf_yearBefore_bounds (month day lastMonth lastDay lastYear : Int) :
    marchYearOf (yearBefore month day lastMonth lastDay lastYear) month ≤
        marchYearOf lastYear lastMonth ∧
      marchYearOf lastYear lastMonth ≤
        marchYearOf (yearBefore month day lastMonth lastDay lastYear) month + 1 := by
  unfold yearBefore marchYearOf
  by_cases after : ComesAfter month day lastMonth lastDay
  · rw [if_pos after]
    unfold ComesAfter at after
    split <;> split <;> omega
  · rw [if_neg after]
    unfold ComesAfter at after
    split <;> split <;> omega

theorem daysTo_of_ofYmd (lastOn : Date.ofYmd lastYear lastMonth lastDay = .ok last)
    (lastCommon : lastDay ≤ monthLength 1 lastMonth)
    (dateOn : Date.ofYmd (yearBefore month day lastMonth lastDay lastYear) month day = .ok date)
    (common : day ≤ monthLength 1 month) :
    (Date.LeapDayBetween date last →
        date.daysTo last = commonSpan month day lastMonth lastDay + 1) ∧
      (¬Date.LeapDayBetween date last →
        date.daysTo last = commonSpan month day lastMonth lastDay) := by
  have bounds := marchYearOf_yearBefore_bounds month day lastMonth lastDay lastYear
  have same := marchYearOf_yearBefore month day lastMonth lastDay lastYear
  have lastPlace := Date.marchYear_of_ofYmd lastOn lastCommon
  have place := Date.marchYear_of_ofYmd dateOn common
  have spans := @Date.daysTo_eq date last (Date.not_isLeapDay_of_ofYmd lastOn lastCommon)
  rw [lastPlace, place] at spans
  simp only [same] at spans
  exact spans bounds.1 bounds.2

theorem commonSpan_bounds (months : 1 ≤ month ∧ month ≤ 12)
    (days : 1 ≤ day ∧ day ≤ monthLength 1 month) (lastMonths : 1 ≤ lastMonth ∧ lastMonth ≤ 12)
    (lastDays : 1 ≤ lastDay ∧ lastDay ≤ monthLength 1 lastMonth) :
    0 ≤ commonSpan month day lastMonth lastDay ∧ commonSpan month day lastMonth lastDay ≤ 364 := by
  have bounds := sinceMarch_bounds months days
  have lastBounds := sinceMarch_bounds lastMonths lastDays
  have winter := sinceMarch_winter_iff months days
  have lastWinter := sinceMarch_winter_iff lastMonths lastDays
  unfold commonSpan yearBefore marchYearOf
  by_cases after : ComesAfter month day lastMonth lastDay
  · have later := sinceMarch_lt lastMonths months lastDays.2 days.1 after
    rw [if_pos after]
    unfold ComesAfter at after
    split <;> split <;> omega
  · have notLater : ComesAfter lastMonth lastDay month day ∨ lastMonth = month ∧ lastDay = day := by
      unfold ComesAfter at *
      omega
    rw [if_neg after]
    rcases notLater with before | ⟨rfl, rfl⟩
    · have later := sinceMarch_lt months lastMonths days.2 lastDays.1 before
      unfold ComesAfter at before
      split <;> split <;> omega
    · split <;> omega

theorem ofYmd_of_parts {year : Int} (onMonth : date.month = month) (onDay : date.day = day)
    (inYear : date.year = year) : Date.ofYmd year month day = .ok date := by
  rw [← inYear, ← onMonth, ← onDay]
  exact date.ofYmd_parts

theorem latestUpTo_of_ofYmd (lastOn : Date.ofYmd lastYear lastMonth lastDay = .ok last)
    (dateOn : Date.ofYmd (yearBefore month day lastMonth lastDay lastYear) month day = .ok date) :
    Date.LatestUpTo month day last date := by
  obtain ⟨inYear, onMonth, onDay⟩ := Date.parts_of_ofYmd dateOn
  obtain ⟨lastInYear, -, -⟩ := Date.parts_of_ofYmd lastOn
  unfold yearBefore at inYear dateOn
  have afterIff : ∀ other : Date, other.month = month → other.day = day → other.year = lastYear →
      (last < other ↔ ComesAfter month day lastMonth lastDay) := fun other sameMonth sameDay same =>
    Date.lt_iff_of_ofYmd lastOn (ofYmd_of_parts sameMonth sameDay same)
  refine ⟨onMonth, onDay, ?_, ?_⟩
  · by_cases after : ComesAfter month day lastMonth lastDay
    · rw [if_pos after] at inYear
      have earlier : date < last := Date.lt_of_year_lt (by omega)
      exact Int.le_of_lt earlier
    · rw [if_neg after] at inYear
      exact Int.not_lt.mp (mt (afterIff date onMonth onDay inYear).mp after)
  · intro other sameMonth sameDay notAfter
    by_contra later
    have parts := Date.parts_lt_of_lt (Int.not_le.mp later)
    have inLaterYear : date.year < other.year := by omega
    have notBeyond : other.year ≤ lastYear := by
      by_contra beyond
      have before : last < other := Date.lt_of_year_lt (by omega)
      exact Int.not_le.mpr before notAfter
    have after : ComesAfter month day lastMonth lastDay := by
      by_contra none
      rw [if_neg none] at inYear
      omega
    rw [if_pos after] at inYear
    exact Int.not_le.mpr ((afterIff other sameMonth sameDay (by omega)).mpr after) notAfter

theorem daysTo_le_of_ofYmd (lastOn : Date.ofYmd lastYear lastMonth lastDay = .ok last)
    (dateOn : Date.ofYmd (yearBefore month day lastMonth lastDay lastYear) month day = .ok date) :
    date.daysTo last ≤ 365 := by
  obtain ⟨lastNumber, lastMonths, lastDays⟩ := Date.number_of_ofYmd lastOn
  obtain ⟨number, months, days⟩ := Date.number_of_ofYmd dateOn
  have next := dayNumber_nextYear_le (yearBefore month day lastMonth lastDay lastYear) month day
  have passed : dayNumber lastYear lastMonth lastDay <
      dayNumber (yearBefore month day lastMonth lastDay lastYear + 1) month day := by
    unfold yearBefore
    by_cases after : ComesAfter month day lastMonth lastDay
    · rw [if_pos after, Int.sub_add_cancel]
      exact Date.dayNumber_lt_of_comesAfter lastMonths.1 lastDays.2 months.2 days.1 after
    · rw [if_neg after]
      have length := monthLength_le lastYear lastMonth
      exact Date.dayNumber_lt_of_year_lt (by omega) lastMonths (by omega) months days.1
  unfold Date.daysTo
  omega

end Anniversaries

end FeastCalendar.Civil
