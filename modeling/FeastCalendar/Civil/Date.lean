import FeastCalendar.Text.Numeral

/-!
Civil dates: the days of the proleptic Gregorian calendar from 1 January 1 to 31 December 9999. A
date is its day number, counted from day 1; year, month and day are read off it. Both directions
go through years that begin on 1 March, where the leap day comes last.
-/

namespace FeastCalendar.Civil

abbrev lastDay : Int := 3652059

structure Date where
  number : Int
  one_le : 1 ≤ number
  le_last : number ≤ lastDay
deriving DecidableEq

/-- Why a text or three numbers name no date. -/
inductive Refusal where
  | year (given : Int)
  | month
  | day
  | numeral (fault : Text.NumeralFault)
  | tooFewParts (count : Nat)
  | tooManyParts
  | beyondRange
deriving DecidableEq, Repr

def marchFirst (year : Int) : Int := 365 * year + year / 4 - year / 100 + year / 400 - 305

def daysFromMarch (months : Int) : Int := (153 * months + 2) / 5

def isLeap (year : Int) : Bool := year % 4 = 0 && (year % 100 != 0 || year % 400 = 0)

def monthLength (year month : Int) : Int :=
  if month = 2 then if isLeap year then 29 else 28
  else if month = 4 || month = 6 || month = 9 || month = 11 then 30
  else 31

/-- The number of the day that year, month and day name, if they name one. -/
def dayNumber (year month day : Int) : Int :=
  if 2 < month then marchFirst year + daysFromMarch (month - 3) + day - 1
  else marchFirst (year - 1) + daysFromMarch (month + 9) + day - 1

/-- The bounds of the numbers a date is asked for with. -/
abbrev wordLimit : Int := 2147483648

def isWord (n : Int) : Bool := -wordLimit ≤ n && n < wordLimit

theorem dayNumber_bounds {year month day : Int} (years : 1 ≤ year ∧ year ≤ 9999)
    (months : 1 ≤ month ∧ month ≤ 12) (days : 1 ≤ day ∧ day ≤ 31) :
    1 ≤ dayNumber year month day ∧ dayNumber year month day ≤ lastDay := by
  unfold dayNumber marchFirst daysFromMarch lastDay
  split <;> omega

theorem monthLength_le (year month : Int) : monthLength year month ≤ 31 := by
  unfold monthLength
  split
  · split <;> omega
  · split <;> omega

namespace Date

instance : LT Date := ⟨fun left right => left.number < right.number⟩
instance : LE Date := ⟨fun left right => left.number ≤ right.number⟩

instance (left right : Date) : Decidable (left < right) :=
  inferInstanceAs (Decidable (left.number < right.number))
instance (left right : Date) : Decidable (left ≤ right) :=
  inferInstanceAs (Decidable (left.number ≤ right.number))

theorem lt_iff {left right : Date} : left < right ↔ left.number < right.number := Iff.rfl
theorem le_iff {left right : Date} : left ≤ right ↔ left.number ≤ right.number := Iff.rfl

theorem eq_of_number {left right : Date} (same : left.number = right.number) : left = right := by
  cases left; cases right; simp_all

def ofNumber? (n : Int) : Option Date :=
  if range : 1 ≤ n ∧ n ≤ lastDay then some ⟨n, range.1, range.2⟩ else none

theorem ofNumber?_number (date : Date) : ofNumber? date.number = some date := by
  simp [ofNumber?, date.one_le, date.le_last]

theorem number_of_ofNumber? {n : Int} {date : Date} (found : ofNumber? n = some date) :
    date.number = n := by
  unfold ofNumber? at found
  split at found
  · cases found; rfl
  · cases found

/-- The date of a year, month and day, refused for the first of the three that is at fault. -/
def ofYmd (year month day : Int) : Except Refusal Date :=
  if !(isWord year && isWord month && isWord day) then .error .beyondRange
  else if years : 1 ≤ year ∧ year ≤ 9999 then
    if months : 1 ≤ month ∧ month ≤ 12 then
      if days : 1 ≤ day ∧ day ≤ monthLength year month then
        have bounds := dayNumber_bounds years months
          ⟨days.1, Int.le_trans days.2 (monthLength_le year month)⟩
        .ok ⟨dayNumber year month day, bounds.1, bounds.2⟩
      else .error .day
    else .error .month
  else .error (.year year)

/-- The year that began on the last 1 March, and the days since. -/
def marchYear (date : Date) : Int × Int :=
  let days := date.number + 305
  let fours := days / 146097
  let inFours := days % 146097
  let century := min (inFours / 36524) 3
  let inCentury := inFours - 36524 * century
  let cycle := inCentury / 1461
  let inCycle := inCentury % 1461
  let single := min (inCycle / 365) 3
  (400 * fours + 100 * century + 4 * cycle + single, inCycle - 365 * single)

def marchMonth (date : Date) : Int := (5 * date.marchYear.2 + 2) / 153

def month (date : Date) : Int :=
  if date.marchMonth < 10 then date.marchMonth + 3 else date.marchMonth - 9

def year (date : Date) : Int :=
  if date.marchMonth < 10 then date.marchYear.1 else date.marchYear.1 + 1

def day (date : Date) : Int := date.marchYear.2 - daysFromMarch date.marchMonth + 1

def add? (date : Date) (days : Int) : Option Date := ofNumber? (date.number + days)

def daysTo (date other : Date) : Int := other.number - date.number

def first : Date := ⟨1, by decide, by decide⟩
def last : Date := ⟨lastDay, by decide, by decide⟩

end Date

end FeastCalendar.Civil
