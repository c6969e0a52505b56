import Mathlib.Logic.Function.Iterate
import FeastCalendar.Fault
import FeastCalendar.Proofs.Civil.Iso
import FeastCalendar.Proofs.Civil.Weekday
import FeastCalendar.Proofs.Text.Integer

/-!
Reckoning with dates against the calendar itself. A day of the calendar without end is a year, a
month of it and a day of that month, and the next day and the day before are told by the lengths of
the months. Day numbers count just these steps, so that adding days to a date is taking as many
steps from its parts, and fails where the steps leave the years 1 to 9999.
-/

namespace FeastCalendar.Civil

/-- A year, a month and a day of it, in any year before or after. -/
@[ext]
structure CalendarDay where
  year : Int
  month : Int
  day : Int
deriving DecidableEq

theorem monthLength_ge (year month : Int) : 28 ≤ monthLength year month := by
  unfold monthLength
  split
  · split <;> omega
  · split <;> omega

theorem monthLength_december (year : Int) : monthLength year 12 = 31 := rfl

theorem dayNumber_march (year : Int) :
    dayNumber year 3 1 = dayNumber year 2 (monthLength year 2) + 1 := by
  have march := marchFirst_succ (year - 1)
  rw [Int.sub_add_cancel] at march
  simp only [dayNumber, daysFromMarch, monthLength, if_true]
  split at march
  next leap =>
    rw [if_pos leap]
    omega
  next common =>
    rw [if_neg common]
    omega

theorem dayNumber_nextMonth {year month : Int} (months : 1 ≤ month ∧ month < 12) :
    dayNumber year (month + 1) 1 = dayNumber year month (monthLength year month) + 1 := by
  by_cases february : month = 2
  · rw [february]
    exact dayNumber_march year
  · have each : month = 1 ∨ month = 3 ∨ month = 4 ∨ month = 5 ∨ month = 6 ∨ month = 7 ∨
      month = 8 ∨ month = 9 ∨ month = 10 ∨ month = 11 := by omega
    simp only [dayNumber, daysFromMarch, monthLength, if_neg february, Bool.or_eq_true,
      decide_eq_true_eq]
    rcases each with rfl | rfl | rfl | rfl | rfl | rfl | rfl | rfl | rfl | rfl <;> split <;> omega

theorem dayNumber_nextYear (year : Int) :
    dayNumber (year + 1) 1 1 = dayNumber year 12 31 + 1 := by
  simp [dayNumber, daysFromMarch]
  omega

namespace CalendarDay

/-- The months have the lengths of the Gregorian calendar. -/
structure Valid (named : CalendarDay) : Prop where
  months : 1 ≤ named.month ∧ named.month ≤ 12
  days : 1 ≤ named.day ∧ named.day ≤ monthLength named.year named.month

def Held (named : CalendarDay) : Prop := 1 ≤ named.year ∧ named.year ≤ 9999

def Before (named other : CalendarDay) : Prop :=
  named.year < other.year ∨ named.year = other.year ∧
    (named.month < other.month ∨ named.month = other.month ∧ named.day < other.day)

def next (named : CalendarDay) : CalendarDay :=
  if named.day < monthLength named.year named.month then
    ⟨named.year, named.month, named.day + 1⟩
  else if named.month < 12 then ⟨named.year, named.month + 1, 1⟩
  else ⟨named.year + 1, 1, 1⟩

def previous (named : CalendarDay) : CalendarDay :=
  if 1 < named.day then ⟨named.year, named.month, named.day - 1⟩
  else if 1 < named.month then
    ⟨named.year, named.month - 1, monthLength named.year (named.month - 1)⟩
  else ⟨named.year - 1, 12, 31⟩

def after (named : CalendarDay) : Int → CalendarDay
  | .ofNat days => next^[days] named
  | .negSucc days => previous^[days + 1] named

def number (named : CalendarDay) : Int := dayNumber named.year named.month named.day

variable {named other : CalendarDay}

theorem Valid.next (valid : named.Valid) : named.next.Valid := by
  obtain ⟨months, days⟩ := valid
  unfold CalendarDay.next
  split
  · exact ⟨months, by simp only; omega⟩
  · have length := monthLength_ge named.year (named.month + 1)
    split
    · exact ⟨by simp only; omega, by simp only; omega⟩
    · have january := monthLength_ge (named.year + 1) 1
      exact ⟨by simp only; omega, by simp only; omega⟩

theorem Valid.previous (valid : named.Valid) : named.previous.Valid := by
  obtain ⟨months, days⟩ := valid
  unfold CalendarDay.previous
  split
  · exact ⟨months, by simp only; omega⟩
  · have length := monthLength_ge named.year (named.month - 1)
    split
    · exact ⟨by simp only; omega, by simp only; omega⟩
    · exact ⟨by simp only; omega, by simp only [monthLength_december]; omega⟩

theorem number_next (valid : named.Valid) : named.next.number = named.number + 1 := by
  obtain ⟨months, days⟩ := valid
  unfold CalendarDay.next number
  split
  · simp only [dayNumber]
    split <;> omega
  · have last : named.day = monthLength named.year named.month := by omega
    split
    · rw [last]
      exact dayNumber_nextMonth ⟨months.1, by assumption⟩
    · have december : named.month = 12 := by omega
      rw [last, december]
      exact dayNumber_nextYear named.year

theorem next_previous (valid : named.Valid) : named.previous.next = named := by
  obtain ⟨year, month, day⟩ := named
  obtain ⟨months, days⟩ := valid
  simp only at months days
  simp only [CalendarDay.previous]
  split
  next later =>
    have within : day - 1 < monthLength year month := by omega
    simp [CalendarDay.next, within]
  next =>
    obtain rfl : day = 1 := by omega
    split
    next later =>
      have within : month - 1 < 12 := by omega
      simp [CalendarDay.next, within]
    next =>
      obtain rfl : month = 1 := by omega
      simp [CalendarDay.next, monthLength_december]

theorem number_previous (valid : named.Valid) : named.previous.number = named.number - 1 := by
  have step := number_next valid.previous
  rw [next_previous valid] at step
  omega

theorem iterate_next (valid : named.Valid) (days : Nat) :
    (CalendarDay.next^[days] named).Valid ∧
      (CalendarDay.next^[days] named).number = named.number + days := by
  induction days with
  | zero => exact ⟨valid, (Int.add_zero _).symm⟩
  | succ days ih =>
    rw [Function.iterate_succ_apply']
    refine ⟨ih.1.next, ?_⟩
    rw [number_next ih.1, ih.2]
    omega

theorem iterate_previous (valid : named.Valid) (days : Nat) :
    (CalendarDay.previous^[days] named).Valid ∧
      (CalendarDay.previous^[days] named).number = named.number - days := by
  induction days with
  | zero => exact ⟨valid, (Int.sub_zero _).symm⟩
  | succ days ih =>
    rw [Function.iterate_succ_apply']
    refine ⟨ih.1.previous, ?_⟩
    rw [number_previous ih.1, ih.2]
    omega

/-- So many steps through the calendar are so many day numbers. -/
theorem Valid.after (valid : named.Valid) (days : Int) :
    (named.after days).Valid ∧ (named.after days).number = named.number + days := by
  cases days with
  | ofNat days => exact iterate_next valid days
  | negSucc days =>
    obtain ⟨still, number⟩ := iterate_previous valid (days + 1)
    refine ⟨still, ?_⟩
    rw [CalendarDay.after, number]
    omega

theorem before_trichotomy (named other : CalendarDay) :
    named.Before other ∨ named = other ∨ other.Before named := by
  rw [CalendarDay.ext_iff]
  unfold Before
  omega

theorem number_lt_of_before (valid : named.Valid) (otherValid : other.Valid)
    (before : named.Before other) : named.number < other.number := by
  have length := monthLength_le named.year named.month
  unfold number
  rcases before with year | ⟨sameYear, month | ⟨sameMonth, day⟩⟩
  · exact Date.dayNumber_lt_of_year_lt year valid.months (Int.le_trans valid.days.2 length)
      otherValid.months otherValid.days.1
  · rw [← sameYear]
    exact Date.dayNumber_lt_of_month_lt month valid.months.1 valid.days.2 otherValid.months.2
      otherValid.days.1
  · rw [← sameYear, ← sameMonth]
    unfold dayNumber
    split <;> omega

theorem number_lt_iff (valid : named.Valid) (otherValid : other.Valid) :
    named.number < other.number ↔ named.Before other := by
  constructor
  · intro lower
    rcases before_trichotomy named other with before | same | behind
    · exact before
    · rw [same] at lower
      omega
    · have higher := number_lt_of_before otherValid valid behind
      omega
  · exact number_lt_of_before valid otherValid

theorem eq_iff_number (valid : named.Valid) (otherValid : other.Valid) :
    named = other ↔ named.number = other.number := by
  constructor
  · exact congrArg number
  · intro same
    rcases before_trichotomy named other with before | equal | behind
    · have lower := number_lt_of_before valid otherValid before
      omega
    · exact equal
    · have lower := number_lt_of_before otherValid valid behind
      omega

theorem held_iff (valid : named.Valid) :
    named.Held ↔ 1 ≤ named.number ∧ named.number ≤ lastDay := by
  have length := monthLength_le named.year named.month
  have days : 1 ≤ named.day ∧ named.day ≤ 31 := ⟨valid.days.1, Int.le_trans valid.days.2 length⟩
  constructor
  · intro held
    exact dayNumber_bounds held valid.months days
  · intro range
    have notBefore : ¬named.year < 1 := by
      intro before
      have lower : named.number < dayNumber 1 1 1 :=
        Date.dayNumber_lt_of_year_lt before valid.months days.2 (by decide) (by decide)
      have first : dayNumber 1 1 1 = 1 := rfl
      omega
    have notBeyond : ¬9999 < named.year := by
      intro beyond
      have higher : dayNumber 9999 12 31 < named.number :=
        Date.dayNumber_lt_of_year_lt beyond (by decide) (by decide) valid.months days.1
      have last : dayNumber 9999 12 31 = lastDay := rfl
      omega
    unfold Held
    omega

end CalendarDay

namespace Date

def parts (date : Date) : CalendarDay := ⟨date.year, date.month, date.day⟩

theorem valid_parts (date : Date) : date.parts.Valid := ⟨date.month_bounds, date.day_bounds⟩

theorem number_parts (date : Date) : date.parts.number = date.number := date.dayNumber_parts

theorem lt_iff_parts {date other : Date} : date < other ↔ date.parts.Before other.parts := by
  rw [lt_iff, ← date.number_parts, ← other.number_parts,
    CalendarDay.number_lt_iff date.valid_parts other.valid_parts]

theorem parts_inj {date other : Date} : date.parts = other.parts ↔ date = other := by
  rw [CalendarDay.eq_iff_number date.valid_parts other.valid_parts, number_parts, number_parts,
    ext_iff]

theorem existsUnique_parts_iff (named : CalendarDay) :
    (∃! date : Date, date.parts = named) ↔ named.Valid ∧ named.Held := by
  constructor
  · rintro ⟨date, rfl, -⟩
    exact ⟨date.valid_parts, date.year_bounds⟩
  · rintro ⟨valid, held⟩
    obtain ⟨date, -, number⟩ := exists_ofNumber? ((CalendarDay.held_iff valid).mp held)
    have same : date.parts = named := by
      rw [CalendarDay.eq_iff_number date.valid_parts valid, number_parts, number]
    exact ⟨date, same, fun other also => parts_inj.mp (also.trans same.symm)⟩

theorem add?_eq_some_iff_parts {date moved : Date} {days : Int} :
    date.add? days = some moved ↔ moved.parts = date.parts.after days := by
  obtain ⟨valid, number⟩ := date.valid_parts.after days
  rw [add?_eq_some_iff, CalendarDay.eq_iff_number moved.valid_parts valid, number, number_parts,
    number_parts]

theorem add?_eq_none_iff_parts {date : Date} {days : Int} :
    date.add? days = none ↔ ¬(date.parts.after days).Held := by
  obtain ⟨valid, number⟩ := date.valid_parts.after days
  rw [add?_eq_none_iff, CalendarDay.held_iff valid, number, number_parts]
  omega

theorem add?_daysTo (date other : Date) : date.add? (date.daysTo other) = some other := by
  rw [add?_eq_some_iff, daysTo]
  omega

theorem daysTo_of_add? {date moved : Date} {days : Int} (found : date.add? days = some moved) :
    date.daysTo moved = days := by
  have number := add?_eq_some_iff.mp found
  rw [daysTo]
  omega

theorem add?_add {date moved : Date} {first : Int} (found : date.add? first = some moved)
    (days : Int) : moved.add? days = date.add? (first + days) := by
  have number := add?_eq_some_iff.mp found
  rw [add?, add?, number, Int.add_assoc]

theorem iso_lt_iff {date other : Date} : date.iso < other.iso ↔ date < other := by
  constructor
  · intro below
    rcases Int.lt_trichotomy date.number other.number with before | same | behind
    · exact before
    · rw [eq_of_number same] at below
      exact absurd below (String.lt_irrefl _)
    · exact absurd below (String.lt_asymm (iso_lt_of_lt behind))
  · exact iso_lt_of_lt

theorem weekday_eq_zero_iff (date : Date) : date.weekday = 0 ↔ date.weekdayName = "sunday" := by
  have bounds := date.weekday_bounds
  have named : ∀ weekday < 7, weekdayNames.getD weekday "" = "sunday" ↔ weekday = 0 := by decide
  rw [weekdayName, named date.weekday.toNat (by omega)]
  omega

theorem pieces_iso (date : Date) :
    Text.pieces '-' date.iso =
      [String.ofList (Text.padded 4 date.year.toNat),
        String.ofList (Text.padded 2 date.month.toNat),
        String.ofList (Text.padded 2 date.day.toNat)] := by
  have absent : ∀ width n : Nat, '-' ∉ Text.padded width n := by
    intro width n member
    rcases List.mem_append.mp member with zero | digit
    · exact absurd (List.eq_of_mem_replicate zero) (by decide)
    · have bounds := Text.mem_natDigits_bounds digit
      exact absurd bounds (by decide)
  rw [Text.pieces, toList_iso, Text.splitAt_append (absent _ _), Text.splitAt_append (absent _ _),
    Text.splitAt_of_not_mem (absent _ _)]
  rfl

theorem ofText_iso (date : Date) : ofText date.iso = .ok date := by
  have years := date.year_bounds
  have months := date.month_bounds
  have days := date.day_bounds
  have length := monthLength_le date.year date.month
  have year : Text.readInt (String.ofList (Text.padded 4 date.year.toNat)) = .ok date.year :=
    Text.readInt_padded (by decide) (by omega) (by omega) (by decide)
  have month : Text.readInt (String.ofList (Text.padded 2 date.month.toNat)) = .ok date.month :=
    Text.readInt_padded (by decide) (by omega) (by omega) (by decide)
  have day : Text.readInt (String.ofList (Text.padded 2 date.day.toNat)) = .ok date.day :=
    Text.readInt_padded (by decide) (by omega) (by omega) (by decide)
  have read : ((Text.pieces '-' date.iso).take 4).mapM
      (fun part => (Text.readInt part).mapError Refusal.numeral) =
        .ok [date.year, date.month, date.day] := by
    rw [date.pieces_iso, Attempt.mapM_eq_ok]
    refine .cons ?_ (.cons ?_ (.cons ?_ .nil))
    · rw [year, Except.mapError]
    · rw [month, Except.mapError]
    · rw [day, Except.mapError]
  rw [ofText, read, Attempt.ok_bind]
  exact date.ofYmd_parts

theorem iso_inj {date other : Date} : date.iso = other.iso ↔ date = other := by
  constructor
  · intro same
    have read := date.ofText_iso
    rw [same, other.ofText_iso] at read
    exact (Except.ok.inj read).symm
  · exact congrArg iso

/-- Reckoning with dates is exact: dates are the days of the years 1 to 9999, days are added as the
calendar counts them, and out of range just where they lead to another year; adding, the days
between, weekdays and texts agree with one another. -/
theorem reckoning_exact (date other : Date) (first days : Int) :
    (∀ named, (∃! own : Date, own.parts = named) ↔ named.Valid ∧ named.Held) ∧
    ((∀ moved, inRange (date.add? days) = .ok moved ↔ moved.parts = date.parts.after days) ∧
      ((∃ moved, inRange (date.add? days) = .ok moved) ↔ (date.parts.after days).Held) ∧
      (inRange (date.add? days) = .error (.date .beyondRange) ↔
        ¬(date.parts.after days).Held)) ∧
    ((∀ moved, date.add? days = some moved → date.daysTo moved = days) ∧
      (∀ moved, date.add? first = some moved → moved.add? days = date.add? (first + days)) ∧
      date.add? (date.daysTo other) = some other) ∧
    ((0 ≤ date.weekday ∧ date.weekday < 7) ∧ (date.weekday = 0 ↔ date.weekdayName = "sunday") ∧
      Date.first.weekdayName = "monday" ∧
      ∀ moved, date.add? days = some moved → moved.weekday = (date.weekday + days) % 7) ∧
    ofText date.iso = .ok date ∧
    ((date.iso < other.iso ↔ date < other) ∧ (date < other ↔ date.parts.Before other.parts)) := by
  refine ⟨existsUnique_parts_iff, ⟨?_, ?_, ?_⟩, ⟨?_, ?_, date.add?_daysTo other⟩,
    ⟨date.weekday_bounds, date.weekday_eq_zero_iff, rfl, ?_⟩, date.ofText_iso, iso_lt_iff,
    lt_iff_parts⟩
  · intro moved
    rw [inRange_eq_ok, add?_eq_some_iff_parts]
  · simp only [inRange_eq_ok]
    rw [← Option.ne_none_iff_exists', Ne, add?_eq_none_iff_parts, not_not]
  · rw [inRange_eq_error, add?_eq_none_iff_parts]
    exact and_iff_left rfl
  · exact fun moved => daysTo_of_add?
  · exact fun moved found => add?_add found days
  · exact fun moved => weekday_of_add?

/-- From 28 February 2024 the leap day is one day off and 1 March two. -/
theorem reckoning_exact_leapDay :
    ∃ february leap march : Date, february.parts = ⟨2024, 2, 28⟩ ∧ march.parts = ⟨2024, 3, 1⟩ ∧
      (february.add? 1 = some leap ∧ leap.add? 2 = february.add? (1 + 2)) ∧
      inRange (february.add? 2) = .ok march ∧ march.parts = february.parts.after 2 ∧
      february.daysTo march = 2 ∧ march.weekday = (february.weekday + 2) % 7 := by
  let february : Date := ⟨738944, by decide, by decide⟩
  let leap : Date := ⟨738945, by decide, by decide⟩
  let march : Date := ⟨738946, by decide, by decide⟩
  have one : february.add? 1 = some leap := rfl
  have two : february.add? 2 = some march := rfl
  obtain ⟨-, ⟨moved, -⟩, ⟨span, further, -⟩, ⟨-, -, -, weekday⟩, -⟩ :=
    reckoning_exact february march 1 2
  exact ⟨february, leap, march, by decide, by decide, ⟨one, further leap one⟩,
    inRange_eq_ok.mpr two, (moved march).mp (inRange_eq_ok.mpr two), span march two,
    weekday march two⟩

end Date

end FeastCalendar.Civil
