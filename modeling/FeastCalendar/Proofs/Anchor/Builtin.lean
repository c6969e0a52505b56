import Mathlib.Tactic.Choose
import FeastCalendar.Anchor.Builtin
import FeastCalendar.Proofs.Anchor.Closure
import FeastCalendar.Proofs.Civil.Iso
import FeastCalendar.Proofs.Civil.Weekday
import FeastCalendar.Proofs.Easter.FullMoon

/-!
The table of the Roman calendar. It exists in every year that the calendar holds, and its dates are
reckoned from Easter, from 6 January and from 27 November.
-/

namespace FeastCalendar
open Civil (Date marchFirst dayNumber monthLength lastDay)

namespace Civil

theorem marchFirst_bounds {year : Int} (held : 1 ≤ year ∧ year ≤ 9999) :
    60 ≤ marchFirst year ∧ marchFirst year + 305 ≤ lastDay := by
  unfold marchFirst lastDay
  omega

theorem monthLength_common_le (year month : Int) : monthLength 1 month ≤ monthLength year month := by
  unfold monthLength
  split
  · rw [show isLeap 1 = false from rfl, if_neg Bool.false_ne_true]
    split <;> omega
  · exact Int.le_refl _

theorem dayNumber_january (year day : Int) :
    dayNumber year 1 day =
      marchFirst year - 60 - (if isLeap year then 1 else 0) + day := by
  have step := marchFirst_succ (year - 1)
  rw [show year - 1 + 1 = year by omega] at step
  have january : dayNumber year 1 day = marchFirst (year - 1) + 306 + day - 1 := rfl
  omega

end Civil

namespace Easter

theorem sunday_number {year : Int} {easter : Date} (held : 1 ≤ year ∧ year ≤ 9999)
    (found : sunday year = .ok easter) :
    marchFirst year + 21 ≤ easter.number ∧ easter.number ≤ marchFirst year + 55 ∧
      easter.number % 7 = 0 := by
  obtain ⟨date, sameFound, -, -, number⟩ := sunday_eq_ok held
  cases found.symm.trans sameFound
  have bounds := marchDays_bounds year
  have first := (marchDays_isFirstSundayAfter year).2.1
  have march : dayNumber year 3 1 = marchFirst year + 0 + 1 - 1 := rfl
  rw [fromMarch, march] at number first
  rw [number]
  exact ⟨by omega, by omega, first⟩

end Easter

theorem Anchor.dayOf_eq_ok {year : Int} (held : 1 ≤ year ∧ year ≤ 9999) (month day : Int)
    (months : 1 ≤ month ∧ month ≤ 12) (days : 1 ≤ day ∧ day ≤ monthLength 1 month) :
    ∃ date, dayOf year month day = .ok date ∧ date.number = dayNumber year month day := by
  have common := Civil.monthLength_common_le year month
  obtain ⟨date, named, number⟩ := Date.exists_ofYmd held months ⟨days.1, by omega⟩
  refine ⟨date, ?_, number⟩
  rw [dayOf, named]
  rfl

theorem Anchor.resolve_weekdayAfter {year month day weekday : Int} {inclusive : Bool}
    {names : List Text} {start : Date} (begun : dayOf year month day = .ok start) (easter : Date)
    (placed : Keyed Text Date) :
    (weekdayAfter month day weekday inclusive names).resolve year easter placed =
      inRange (start.nextWeekday? weekday inclusive) := by
  rw [resolve, begun]
  rfl

theorem Anchor.firstSunday_cases {year month : Int} (count : Nat) (day : Int)
    (exist : ∀ later, day ≤ later → later < day + count →
      ∃ date, dayOf year month later = .ok date ∧ date.number = dayNumber year month later) :
    (∃ date later, firstSunday year month count day = .ok (some date) ∧ day ≤ later ∧
      later < day + count ∧ date.number = dayNumber year month later ∧ date.number % 7 = 0) ∨
    (firstSunday year month count day = .ok none ∧
      ∀ later, day ≤ later → later < day + count → dayNumber year month later % 7 ≠ 0) := by
  induction count generalizing day with
  | zero => exact Or.inr ⟨rfl, fun later after before => by omega⟩
  | succ count ih =>
    obtain ⟨date, own, number⟩ := exist day (by omega) (by omega)
    rw [firstSunday, own, Attempt.ok_bind]
    by_cases sunday : date.weekday = 0
    · exact Or.inl ⟨date, day, by rw [if_pos sunday]; rfl, by omega, by omega, number, sunday⟩
    · rw [if_neg sunday]
      rcases ih (day + 1) fun later after before => exist later (by omega) (by omega) with
        ⟨found, later, searched, after, before, there, isSunday⟩ | ⟨searched, none⟩
      · exact Or.inl ⟨found, later, searched, by omega, by omega, there, isSunday⟩
      · refine Or.inr ⟨searched, fun later after before => ?_⟩
        by_cases here : later = day
        · rw [here, ← number]
          exact sunday
        · exact none later (by omega) (by omega)

namespace Definitions

theorem nodup_keys_builtin : (Keyed.keys builtin).Nodup := by decide +kernel

theorem order_builtin : orderWithin chainLimit builtin = .ok (Keyed.keys builtin) := by
  decide +kernel

theorem mem_builtin_of_searched {entry : Text × Anchor} (searched : entry ∈ searchedDays) :
    entry ∈ builtin := List.mem_append_right _ searched

theorem base_of_builtin : ∀ entry ∈ builtin, ∀ base ∈ entry.2.dependsOn, base = "advent_1" := by
  decide +kernel

end Definitions

namespace AnchorTable
open Definitions (easterCycle fixedDays)

variable {year : Int} {table : AnchorTable}

theorem easterCycle_bounds : ∀ entry ∈ easterCycle, -47 ≤ entry.2 ∧ entry.2 ≤ 69 := by decide

theorem fixedDays_bounds : ∀ entry ∈ fixedDays,
    (1 ≤ entry.2.1 ∧ entry.2.1 ≤ 12) ∧ 1 ≤ entry.2.2 ∧ entry.2.2 ≤ monthLength 1 entry.2.1 := by
  decide

theorem baptism_resolve (held : 1 ≤ year ∧ year ≤ 9999) (easter : Date) (placed : Keyed Text Date) :
    ∃ date, (Anchor.weekdayAfter 1 6 0 false []).resolve year easter placed = .ok date ∧
      dayNumber year 1 6 < date.number ∧ date.number ≤ dayNumber year 1 6 + 7 ∧
      date.number % 7 = 0 := by
  have bounds := Civil.marchFirst_bounds held
  have january := Civil.dayNumber_january year 6
  obtain ⟨epiphany, begun, number⟩ := Anchor.dayOf_eq_ok held 1 6 (by decide) (by decide)
  obtain ⟨date, found, moved⟩ := Date.exists_ofNumber?
    (n := epiphany.number + 1 + (0 - epiphany.number - 1) % 7) (by split at january <;> omega)
  refine ⟨date, ?_, by omega, by omega, by omega⟩
  rw [Anchor.resolve_weekdayAfter begun, Date.nextWeekday?_later]
  exact inRange_eq_ok.mpr found

theorem advent_resolve (held : 1 ≤ year ∧ year ≤ 9999) (easter : Date) (placed : Keyed Text Date) :
    ∃ date, (Anchor.weekdayAfter 11 27 0 true []).resolve year easter placed = .ok date ∧
      dayNumber year 11 27 ≤ date.number ∧ date.number ≤ dayNumber year 11 27 + 6 ∧
      date.number % 7 = 0 := by
  have bounds := Civil.marchFirst_bounds held
  have november : dayNumber year 11 27 = marchFirst year + 245 + 27 - 1 := rfl
  obtain ⟨start, begun, number⟩ := Anchor.dayOf_eq_ok held 11 27 (by decide) (by decide)
  obtain ⟨date, found, moved⟩ := Date.exists_ofNumber?
    (n := start.number + (0 - start.number) % 7) (by omega)
  refine ⟨date, ?_, by omega, by omega, by omega⟩
  rw [Anchor.resolve_weekdayAfter begun, Date.nextWeekday?_sameDay]
  exact inRange_eq_ok.mpr found

/-- The Sunday after Christmas, or 30 December when that is in the next year. -/
def familyDay (year : Int) : Int :=
  let christmas := dayNumber year 12 25
  if christmas % 7 = 0 then christmas + 5 else christmas + 7 - christmas % 7

theorem familyDay_bounds (year : Int) :
    dayNumber year 12 25 < familyDay year ∧ familyDay year ≤ dayNumber year 12 25 + 6 := by
  unfold familyDay
  simp only
  split <;> omega

theorem family_resolve (held : 1 ≤ year ∧ year ≤ 9999) (easter : Date) (placed : Keyed Text Date) :
    ∃ date, (Anchor.sundayInWindow 12 26 31 30 []).resolve year easter placed = .ok date ∧
      date.number = familyDay year := by
  have december := Civil.dayNumber_eq_first year 12
  have christmas := december 25
  have exist : ∀ later, 26 ≤ later → later < 32 → ∃ date, Anchor.dayOf year 12 later = .ok date ∧
      date.number = dayNumber year 12 later := by
    intro later after before
    have length : monthLength 1 12 = 31 := rfl
    exact Anchor.dayOf_eq_ok held 12 later (by decide) ⟨by omega, by omega⟩
  unfold familyDay
  rw [Anchor.resolve]
  rcases Anchor.firstSunday_cases (Anchor.windowSize 26 31) 26 exist with
    ⟨date, later, searched, after, before, number, sunday⟩ | ⟨searched, none⟩
  · have size : (Anchor.windowSize 26 31 : Int) = 6 := rfl
    have own := december later
    rw [searched]
    refine ⟨date, rfl, ?_⟩
    simp only
    split <;> omega
  · obtain ⟨date, named, number⟩ := exist 30 (by decide) (by decide)
    have own := december 30
    -- The Sunday after Christmas is not among the days searched, so Christmas is one itself.
    have sunday : dayNumber year 12 25 % 7 = 0 := by
      by_contra weekday
      have size : (Anchor.windowSize 26 31 : Int) = 6 := rfl
      have next := december (32 - dayNumber year 12 25 % 7)
      exact none (32 - dayNumber year 12 25 % 7) (by omega) (by omega) (by omega)
    rw [searched]
    refine ⟨date, named, ?_⟩
    simp only
    rw [if_pos sunday]
    omega

theorem resolve_of_builtin {easter : Date} (held : 1 ≤ year ∧ year ≤ 9999)
    (sunday : Easter.sunday year = .ok easter) (advent : Date) (late : 8 ≤ advent.number) :
    ∀ entry ∈ Definitions.builtin,
      ∃ date, entry.2.resolve year easter [("advent_1", advent)] = .ok date := by
  have bounds := Civil.marchFirst_bounds held
  obtain ⟨low, high, -⟩ := Easter.sunday_number held sunday
  have last := advent.le_last
  intro entry member
  rcases List.mem_append.mp member with early | searched
  · rcases List.mem_append.mp early with cycle | fixed
    · obtain ⟨own, listed, rfl⟩ := List.mem_map.mp cycle
      have near := easterCycle_bounds own listed
      obtain ⟨date, moved, -⟩ := easter.exists_add? own.2
        ⟨by omega, by omega⟩
      exact ⟨date, inRange_eq_ok.mpr moved⟩
    · obtain ⟨own, listed, rfl⟩ := List.mem_map.mp fixed
      have days := fixedDays_bounds own listed
      obtain ⟨date, named, -⟩ := Anchor.dayOf_eq_ok held _ _ days.1 days.2
      exact ⟨date, named⟩
  · simp only [Definitions.searchedDays, List.mem_cons, List.not_mem_nil, or_false] at searched
    rcases searched with rfl | rfl | rfl | rfl
    · obtain ⟨date, found, -⟩ := family_resolve held easter [("advent_1", advent)]
      exact ⟨date, found⟩
    · obtain ⟨date, found, -⟩ := baptism_resolve held easter [("advent_1", advent)]
      exact ⟨date, found⟩
    · obtain ⟨date, found, -⟩ := advent_resolve held easter [("advent_1", advent)]
      exact ⟨date, found⟩
    · obtain ⟨date, moved, -⟩ := advent.exists_add? (-7)
        ⟨by omega, by omega⟩
      refine ⟨date, ?_⟩
      simp only [Anchor.resolve, Keyed.find?, if_true]
      exact inRange_eq_ok.mpr moved

theorem exists_builtin (held : 1 ≤ year ∧ year ≤ 9999) :
    ∃ table, builtin (.int year) = .ok table := by
  obtain ⟨easter, sunday, -⟩ := Easter.sunday_eq_ok held
  obtain ⟨advent, adventFound, late, -⟩ := advent_resolve held easter []
  have bounds := Civil.marchFirst_bounds held
  have november : dayNumber year 11 27 = marchFirst year + 245 + 27 - 1 := rfl
  have resolves := resolve_of_builtin held sunday advent (by omega)
  have each : ∀ key, ∃ date, ∀ anchor, Keyed.find? Definitions.builtin key = some anchor →
      anchor.resolve year easter [("advent_1", advent)] = .ok date := by
    intro key
    cases defined : Keyed.find? Definitions.builtin key with
    | none => exact ⟨easter, nofun⟩
    | some anchor =>
      obtain ⟨date, found⟩ :=
        resolves _ ((Keyed.find?_eq_some_iff Definitions.nodup_keys_builtin).mp defined)
      exact ⟨date, fun _ same => Option.some.inj same ▸ found⟩
  choose solution solves using each
  have adventDefined : Keyed.find? Definitions.builtin "advent_1" =
      some (.weekdayAfter 11 27 0 true []) :=
    (Keyed.find?_eq_some_iff Definitions.nodup_keys_builtin).mpr
      (Definitions.mem_builtin_of_searched (.tail _ (.tail _ (.head _))))
  have adventSolution : solution "advent_1" = advent :=
    Except.ok.inj ((solves _ _ adventDefined).symm.trans adventFound)
  have ordered := (Definitions.orderWithin_ok Definitions.order_builtin).1
  have solved : ∀ key anchor placed, key ∈ Keyed.keys Definitions.builtin →
      Keyed.find? Definitions.builtin key = some anchor →
      (∀ base ∈ anchor.dependsOn, Keyed.find? placed base = some (solution base)) →
      anchor.resolve year easter placed = .ok (solution key) := by
    intro key anchor placed _ defined bases
    rw [← solves key anchor defined]
    refine anchor.resolve_congr year easter fun base names => ?_
    have member := (Keyed.find?_eq_some_iff Definitions.nodup_keys_builtin).mp defined
    have same := Definitions.base_of_builtin _ member base names
    subst same
    rw [bases _ names, adventSolution]
    simp [Keyed.find?]
  obtain ⟨dates, placed, -⟩ := exists_place solution ordered solved
  exact ⟨_, buildWithin_eq_ok.mpr
    ⟨year, easter, _, rfl, sunday, Definitions.order_builtin, dates, placed, rfl⟩⟩

theorem resolved_of_builtin (built : builtin (.int year) = .ok table) :
    ∃ easter, Easter.sunday year = .ok easter ∧
      ∀ entry ∈ Definitions.builtin, ∃ date, table.find? entry.1 = some date ∧
        entry.2.resolve year easter table.dates = .ok date := by
  obtain ⟨easter, order, sunday, -, all, solves⟩ := buildWithin_ok built
  refine ⟨easter, sunday, fun entry member => ?_⟩
  have defined := (Keyed.find?_eq_some_iff Definitions.nodup_keys_builtin).mpr member
  exact solves.resolved entry.1 ((all entry.1).mpr (Keyed.mem_keys_of_find? defined)) entry.2 defined

theorem mem_keys_of_builtin (built : builtin (.int year) = .ok table) {key : Text} {date : Date}
    (found : table.find? key = some date) : key ∈ Keyed.keys Definitions.builtin := by
  obtain ⟨easter, order, -, -, all, solves⟩ := buildWithin_ok built
  rw [← all, ← solves.keys_eq]
  exact Keyed.mem_keys_of_find? found

theorem family_of_builtin (held : 1 ≤ year ∧ year ≤ 9999)
    (built : builtin (.int year) = .ok table) :
    ∃ family, table.find? "holy_family" = some family ∧ family.number = familyDay year := by
  obtain ⟨easter, -, resolved⟩ := resolved_of_builtin built
  obtain ⟨family, found, familyResolved⟩ :=
    resolved ("holy_family", .sundayInWindow 12 26 31 30 [])
      (Definitions.mem_builtin_of_searched (.head _))
  obtain ⟨date, same, number⟩ := family_resolve held easter table.dates
  cases familyResolved.symm.trans same
  exact ⟨family, found, number⟩

/-- The dates of the built-in table: the Easter cycle by its offsets, the fixed days as they are
named, the Baptism of the Lord, the first Sunday of Advent and the Sunday before it. -/
theorem dates_of_builtin (held : 1 ≤ year ∧ year ≤ 9999)
    (built : builtin (.int year) = .ok table) :
    ∃ easter baptism advent king, Easter.sunday year = .ok easter ∧
      (∀ entry ∈ easterCycle, ∃ date, table.find? entry.1 = some date ∧
        date.number = easter.number + entry.2) ∧
      (∀ entry ∈ fixedDays, ∃ date, table.find? entry.1 = some date ∧
        date.number = dayNumber year entry.2.1 entry.2.2) ∧
      (table.find? "baptism_of_the_lord" = some baptism ∧ dayNumber year 1 6 < baptism.number ∧
        baptism.number ≤ dayNumber year 1 6 + 7 ∧ baptism.number % 7 = 0) ∧
      (table.find? "advent_1" = some advent ∧ dayNumber year 11 27 ≤ advent.number ∧
        advent.number ≤ dayNumber year 11 27 + 6 ∧ advent.number % 7 = 0) ∧
      table.find? "christ_king" = some king ∧ king.number = advent.number - 7 := by
  obtain ⟨easter, sunday, resolved⟩ := resolved_of_builtin built
  obtain ⟨baptism, baptismFound, baptismResolved⟩ :=
    resolved ("baptism_of_the_lord", .weekdayAfter 1 6 0 false [])
      (Definitions.mem_builtin_of_searched (.tail _ (.head _)))
  obtain ⟨advent, adventFound, adventResolved⟩ :=
    resolved ("advent_1", .weekdayAfter 11 27 0 true [])
      (Definitions.mem_builtin_of_searched (.tail _ (.tail _ (.head _))))
  obtain ⟨king, kingFound, kingResolved⟩ :=
    resolved ("christ_king", .anchorOffset "advent_1" (-7))
      (Definitions.mem_builtin_of_searched (.tail _ (.tail _ (.tail _ (.head _)))))
  refine ⟨easter, baptism, advent, king, sunday, ?_, ?_, ⟨baptismFound, ?_⟩, ⟨adventFound, ?_⟩,
    kingFound, ?_⟩
  · intro entry listed
    obtain ⟨date, found, reckoned⟩ := resolved (entry.1, .easterOffset entry.2 [])
      (List.mem_append_left _ (List.mem_append_left _ (List.mem_map_of_mem listed)))
    exact ⟨date, found, Date.add?_eq_some_iff.mp (inRange_eq_ok.mp reckoned)⟩
  · intro entry listed
    obtain ⟨date, found, reckoned⟩ := resolved (entry.1, .fixed entry.2.1 entry.2.2 [])
      (List.mem_append_left _ (List.mem_append_right _ (List.mem_map_of_mem listed)))
    have named := Attempt.mapError_eq_ok.mp reckoned
    exact ⟨date, found, (Date.number_of_ofYmd named).1⟩
  · obtain ⟨date, same, bounds⟩ := baptism_resolve held easter table.dates
    cases baptismResolved.symm.trans same
    exact bounds
  · obtain ⟨date, same, bounds⟩ := advent_resolve held easter table.dates
    cases adventResolved.symm.trans same
    exact bounds
  · have base : Keyed.find? table.dates "advent_1" = some advent := adventFound
    rw [Anchor.resolve, base] at kingResolved
    exact Date.add?_eq_some_iff.mp (inRange_eq_ok.mp kingResolved)

end AnchorTable

end FeastCalendar
