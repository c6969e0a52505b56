import FeastCalendar.Proofs.Anchor.Builtin
import FeastCalendar.Proofs.Civil.Calendar
import FeastCalendar.Proofs.Day.Lectionary

/-!
The liturgical year from day to day. It is reckoned anew from the civil year of each date, and yet
it moves on by one on the first Sunday of Advent and on no other day, 1 January included; the reading
cycles move with it.
-/

namespace FeastCalendar
open Civil (Date dayNumber)

theorem Civil.Date.year_of_dayAfter {date next : Date} (step : date.add? 1 = some next) :
    next.year = date.year ∨
      next.year = date.year + 1 ∧ next.number = dayNumber next.year 1 1 ∧
        date.number = dayNumber date.year 12 31 := by
  have number := Date.add?_eq_some_iff.mp step
  obtain ⟨begun, notOver⟩ := Date.year_eq_iff.mp (Eq.refl date.year)
  by_cases last : date.number = dayNumber date.year 12 31
  · have newYear := Civil.dayNumber_nextYear date.year
    have january : next.number = dayNumber (date.year + 1) 1 1 := by omega
    have december : dayNumber (date.year + 1) 1 1 < dayNumber (date.year + 1) 12 31 :=
      dayNumber_lt_of_month_lt (by decide) (by decide) (by decide : (1 : Int) ≤ 31) (by decide)
        (by decide)
    have year : next.year = date.year + 1 := Date.year_eq_iff.mpr ⟨by omega, by omega⟩
    exact Or.inr ⟨year, year ▸ january, last⟩
  · exact Or.inl (Date.year_eq_iff.mpr ⟨by omega, by omega⟩)

theorem AnchorTable.exists_firstAdvent (date : Date) :
    ∃ table advent, builtin (.int date.year) = .ok table ∧ table.find? "advent_1" = some advent ∧
      dayNumber date.year 1 1 < advent.number ∧ advent.number ≤ dayNumber date.year 12 31 := by
  have held := date.year_bounds
  obtain ⟨table, built⟩ := exists_builtin held
  obtain ⟨-, -, advent, -, -, -, -, -, ⟨found, late, early, -⟩, -⟩ := dates_of_builtin held built
  have november : dayNumber date.year 1 1 < dayNumber date.year 11 27 :=
    Date.dayNumber_lt_of_month_lt (by decide) (by decide) (by decide : (1 : Int) ≤ 31) (by decide)
      (by decide)
  have december : dayNumber date.year 12 31 = dayNumber date.year 11 27 + 34 := by
    simp only [dayNumber, Civil.daysFromMarch]
    omega
  exact ⟨table, advent, built, found, by omega, by omega⟩

namespace Attribute

def BeginsAdvent (date : Date) : Prop :=
  ∃ table, AnchorTable.builtin (.int date.year) = .ok table ∧ table.find? "advent_1" = some date

theorem beginsAdvent_iff {date advent : Date} {table : AnchorTable}
    (built : AnchorTable.builtin (.int date.year) = .ok table)
    (found : table.find? "advent_1" = some advent) : BeginsAdvent date ↔ date = advent := by
  constructor
  · rintro ⟨other, otherBuilt, otherFound⟩
    cases built.symm.trans otherBuilt
    exact Option.some.inj (otherFound.symm.trans found)
  · rintro rfl
    exact ⟨table, built, found⟩

/-- Of two days in a row the second begins a liturgical year if it begins Advent, and else is in that
of the first. -/
theorem exists_liturgicalYears {date next : Date} (step : date.add? 1 = some next) :
    ∃ table nextTable advent nextAdvent,
      AnchorTable.builtin (.int date.year) = .ok table ∧
      AnchorTable.builtin (.int next.year) = .ok nextTable ∧
      table.find? "advent_1" = some advent ∧ nextTable.find? "advent_1" = some nextAdvent ∧
      (next = nextAdvent → liturgicalYear next nextAdvent = liturgicalYear date advent + 1) ∧
      (next ≠ nextAdvent → liturgicalYear next nextAdvent = liturgicalYear date advent) := by
  have number := Date.add?_eq_some_iff.mp step
  obtain ⟨table, advent, built, found, begun, ended⟩ := AnchorTable.exists_firstAdvent date
  rcases Date.year_of_dayAfter step with same | ⟨newYear, january, december⟩
  · refine ⟨table, table, advent, advent, built, same ▸ built, found, found, ?_, ?_⟩
    · rintro rfl
      have before : ¬next ≤ date := by
        rw [Date.le_iff]
        omega
      have begun : next ≤ next := Int.le_refl next.number
      rw [liturgicalYear, liturgicalYear, if_pos begun, if_neg before, same]
      omega
    · intro other
      have apart : next.number ≠ advent.number := mt Date.eq_of_number other
      have together : advent ≤ next ↔ advent ≤ date := by
        rw [Date.le_iff, Date.le_iff]
        omega
      simp only [liturgicalYear, together, same]
  · obtain ⟨nextTable, nextAdvent, nextBuilt, nextFound, nextBegun, -⟩ :=
      AnchorTable.exists_firstAdvent next
    -- 31 December is past the Sunday of its year and 1 January before that of the next.
    have past : advent ≤ date := by
      rw [Date.le_iff]
      omega
    have early : ¬nextAdvent ≤ next := by
      rw [Date.le_iff]
      omega
    refine ⟨table, nextTable, advent, nextAdvent, built, nextBuilt, found, nextFound, ?_, ?_⟩
    · rintro rfl
      exact absurd (Int.le_refl _) early
    · intro _
      rw [liturgicalYear, liturgicalYear, if_pos past, if_neg early, newYear]
      omega

theorem cycles_succ (year : Int) :
    (sundayCycle year, sundayCycle (year + 1)) ∈ [("A", "B"), ("B", "C"), ("C", "A")] ∧
      (weekdayCycle year, weekdayCycle (year + 1)) ∈ [("I", "II"), ("II", "I")] := by
  constructor
  · have thirds : year % 3 = 0 ∨ year % 3 = 1 ∨ year % 3 = 2 := by omega
    unfold sundayCycle
    rcases thirds with third | third | third
    · have next : (year + 1) % 3 = 1 := by omega
      simp [third, next]
    · have next : (year + 1) % 3 = 2 := by omega
      simp [third, next]
    · have next : (year + 1) % 3 = 0 := by omega
      simp [third, next]
  · have halves : year % 2 = 0 ∨ year % 2 = 1 := by omega
    unfold weekdayCycle
    rcases halves with half | half
    · have here : (year + 1) % 2 = 1 := by omega
      have next : (year + 1 + 1) % 2 = 0 := by omega
      simp [here, next]
    · have here : (year + 1) % 2 = 0 := by omega
      have next : (year + 1 + 1) % 2 = 1 := by omega
      simp [here, next]

/-- Throughout the calendar the lectionary has values for every day, and from one day to the next it
moves on by one liturgical year if the next day begins Advent and otherwise stays as it is: the
Sunday cycle goes one step round, and the weekday cycle turns over, on those days only. -/
theorem lectionary_advances {day next : Day} (step : day.date.add? 1 = some next.date) :
    ∃ year nextYear, lectionaryValues Definitions.builtin day = .ok (readings year) ∧
      lectionaryValues Definitions.builtin next = .ok (readings nextYear) ∧
      (BeginsAdvent next.date → nextYear = year + 1 ∧
        (sundayCycle year, sundayCycle nextYear) ∈ [("A", "B"), ("B", "C"), ("C", "A")] ∧
        (weekdayCycle year, weekdayCycle nextYear) ∈ [("I", "II"), ("II", "I")]) ∧
      (¬BeginsAdvent next.date → nextYear = year ∧
        sundayCycle nextYear = sundayCycle year ∧ weekdayCycle nextYear = weekdayCycle year) := by
  obtain ⟨table, nextTable, advent, nextAdvent, built, nextBuilt, found, nextFound, begins, stays⟩ :=
    exists_liturgicalYears step
  refine ⟨_, _, lectionaryValues_eq_ok.mpr ⟨table, advent, built, found, rfl⟩,
    lectionaryValues_eq_ok.mpr ⟨nextTable, nextAdvent, nextBuilt, nextFound, rfl⟩, ?_, ?_⟩
  · intro isAdvent
    rw [begins ((beginsAdvent_iff nextBuilt nextFound).mp isAdvent)]
    exact ⟨rfl, cycles_succ _⟩
  · intro isOther
    rw [stays (mt (beginsAdvent_iff nextBuilt nextFound).mpr isOther)]
    exact ⟨rfl, rfl, rfl⟩

def adventEve : Date := ⟨739948, by decide, by decide⟩
def adventSunday : Date := ⟨739949, by decide, by decide⟩

theorem beginsAdvent_adventSunday : BeginsAdvent adventSunday := by
  have held : 1 ≤ adventSunday.year ∧ adventSunday.year ≤ 9999 := adventSunday.year_bounds
  obtain ⟨table, built⟩ := AnchorTable.exists_builtin held
  obtain ⟨-, -, advent, -, -, -, -, -, ⟨found, late, early, sunday⟩, -⟩ :=
    AnchorTable.dates_of_builtin held built
  have november : dayNumber adventSunday.year 11 27 = 739947 := by decide
  have same : advent = adventSunday := by
    apply Date.eq_of_number
    show advent.number = 739949
    omega
  exact ⟨table, built, same ▸ found⟩

theorem lectionary_advances_advent :
    adventEve.add? 1 = some adventSunday ∧ adventSunday.iso = "2026-11-29" ∧
      BeginsAdvent adventSunday ∧
      lectionaryValues Definitions.builtin ⟨adventEve, none, []⟩ = .ok (readings 2025) ∧
      lectionaryValues Definitions.builtin ⟨adventSunday, none, []⟩ = .ok (readings 2026) := by
  have step : adventEve.add? 1 = some adventSunday := by decide
  obtain ⟨year, nextYear, read, nextRead, begins, -⟩ :=
    @lectionary_advances ⟨adventEve, none, []⟩ ⟨adventSunday, none, []⟩ step
  obtain ⟨succ, -, -⟩ := begins beginsAdvent_adventSunday
  obtain ⟨table, built, found⟩ := beginsAdvent_adventSunday
  have here : lectionaryValues Definitions.builtin ⟨adventSunday, none, []⟩ = .ok (readings 2026) :=
    lectionaryValues_eq_ok.mpr ⟨table, adventSunday, built, found, rfl⟩
  have same := eq_of_readings_eq (Except.ok.inj (nextRead.symm.trans here))
  obtain rfl : year = 2025 := by omega
  exact ⟨step, by decide, beginsAdvent_adventSunday, read, here⟩

end Attribute

end FeastCalendar
