import FeastCalendar.Fault

/-!
Easter Sunday, on which every movable feast hangs.
-/

namespace FeastCalendar.Easter

open Civil (Date)

/-- Month and day of Easter Sunday, in whole-number arithmetic on the year alone. -/
def monthDay (year : Int) : Int × Int :=
  let golden := year % 19
  let century := year / 100
  let inCentury := year % 100
  let solar := (century - (century + 8) / 25 + 1) / 3
  let moon := (19 * golden + century - century / 4 - solar + 15) % 30
  let week := (32 + 2 * (century % 4) + 2 * (inCentury / 4) - moon - inCentury % 4) % 7
  let late := (golden + 11 * moon + 22 * week) / 451
  let days := moon + week - 7 * late + 114
  (days / 31, days % 31 + 1)

def sunday (year : Int) : Except Failure Date :=
  if 1 ≤ year ∧ year ≤ 9999 then
    (Date.ofYmd year (monthDay year).1 (monthDay year).2).mapError .date
  else .error (.fault { cause := .invalid .yearOutOfRange, year := some (.int year) })

def yearOf : Json → Except Failure Int
  | .int year => .ok year
  | other => .error (.wrongType (.year other))

theorem yearOf_eq_ok {given : Json} {year : Int} : yearOf given = .ok year ↔ given = .int year := by
  cases given <;> simp [yearOf]

def ofYear (year : Json) : Except Failure Date := do sunday (← yearOf year)

end FeastCalendar.Easter
