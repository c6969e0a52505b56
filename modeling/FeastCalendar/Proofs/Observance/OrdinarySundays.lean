import FeastCalendar.Observance.Year
import FeastCalendar.Proofs.Civil.Search
import FeastCalendar.Proofs.Rule.Reach

/-!
The Sundays in Ordinary Time of any anchors. Two loops over the Sundays of two spans number them
with one counter, and each is left at the first Sunday that would take a number too high. Together
they number the first Sundays of both spans, as many as there are numbers.
-/

namespace FeastCalendar
open Civil (Date)

/-- The Sundays strictly between two dates. There are more than there is room for, or one follows
on which the search for them ends. -/
structure SundaySpan (after before : Date) (room : Nat) (dates : List Date) : Prop where
  sundays : Date.Ascending (fun day => day.weekday = 0 ∧ after < day ∧ day < before) dates
  onward : room < dates.length ∨
    ∃ sunday : Date, sunday.weekday = 0 ∧ after < sunday ∧ before ≤ sunday

/-- A loop over weekly days up to a date. Each takes the next number, until the counter passes the
last one. -/
inductive Numbers (before : Date) : Option Date → Nat → List (Date × Nat) → Nat → Prop
  | ended {date : Date} {count : Nat} (reached : ¬date < before) :
      Numbers before (some date) count [] count
  | full {date : Date} {count : Nat} (more : date < before)
      (passed : Emission.lastOrdinarySunday < count + 1) :
      Numbers before (some date) count [] (count + 1)
  | takes {date : Date} {count last : Nat} {rest : List (Date × Nat)} (more : date < before)
      (numbered : count + 1 ≤ Emission.lastOrdinarySunday)
      (later : Numbers before (date.add? 7) (count + 1) rest last) :
      Numbers before (some date) count ((date, count + 1) :: rest) last

def firstSundayAfter? (date : Date) : Option Date :=
  (date.add? 1).bind fun next => next.nextWeekday? 0 true

section Spans

variable {after before : Date} {start : Option Date} {dates : List Date} {leaves : Bool} {room : Nat}

theorem lt_iff_next_le {next : Date} (moved : after.add? 1 = some next) (day : Date) :
    next ≤ day ↔ after < day := by
  have number := Date.number_of_ofNumber? moved
  rw [Date.le_iff, Date.lt_iff]
  omega

theorem sundays_after (weekly : Date.Weekly before (firstSundayAfter? after) dates leaves) :
    Date.Ascending (fun day => day.weekday = 0 ∧ after < day ∧ day < before) dates ∧
      (leaves = true ↔
        ¬∃ sunday : Date, sunday.weekday = 0 ∧ after < sunday ∧ before ≤ sunday) := by
  unfold firstSundayAfter? at weekly
  cases moved : after.add? 1 with
  | none =>
    rw [moved] at weekly
    cases weekly
    have last : ∀ day : Date, ¬after < day := by
      intro day later
      have beyond := Date.add?_eq_none_iff.mp moved
      have low := after.one_le
      have high := day.le_last
      rw [Date.lt_iff] at later
      omega
    refine ⟨.of_none fun day met => last day met.2.1, ?_⟩
    exact ⟨fun _ ⟨day, _, later, _⟩ => last day later, fun _ => rfl⟩
  | some next =>
    rw [moved] at weekly
    simpa only [lt_iff_next_le moved] using weekly.sundays

theorem sundaySpan_iff {others : List Date}
    (weekly : Date.Weekly before (firstSundayAfter? after) dates leaves) :
    SundaySpan after before room others ↔
      (room < dates.length ∨ leaves = false) ∧ others = dates := by
  obtain ⟨ascending, leaving⟩ := sundays_after weekly
  have stays : leaves = false ↔
      ∃ sunday : Date, sunday.weekday = 0 ∧ after < sunday ∧ before ≤ sunday := by
    rw [← Bool.not_eq_true, leaving, not_not]
  constructor
  · rintro ⟨sundays, onward⟩
    obtain rfl := sundays.unique ascending
    exact ⟨onward.imp_right stays.mpr, rfl⟩
  · rintro ⟨onward, rfl⟩
    exact ⟨ascending, onward.imp_right stays.mp⟩

theorem firstSundaysUntil?_eq_some {found : List Date}
    (weekly : Date.Weekly before (firstSundayAfter? after) dates leaves) :
    (after.add? 1).bind (fun next => next.firstSundaysUntil? before (room + 1)) = some found ↔
      (room < dates.length ∨ leaves = false) ∧ found = dates.take (room + 1) := by
  unfold firstSundayAfter? at weekly
  cases moved : after.add? 1 with
  | none =>
    rw [moved] at weekly
    cases weekly
    simp
  | some next =>
    rw [moved] at weekly
    rw [Option.bind_some, Date.firstSundaysUntil?_eq weekly]
    by_cases more : room < dates.length
    · rw [if_pos more, Option.some.injEq]
      exact ⟨fun same => ⟨.inl more, same.symm⟩, fun taken => taken.2.symm⟩
    · rw [if_neg more, List.take_of_length_le (by omega)]
      cases leaves with
      | true => simp [more]
      | false => simp [eq_comm]

namespace Emission

theorem sundaysBetween_eq_ok {anchors : Anchors} {first last : String} {found : List Date} :
    sundaysBetween anchors first last (room + 1) = .ok found ↔
      ∃ after before dates, anchors.find? first = some after ∧ anchors.find? last = some before ∧
        SundaySpan after before room dates ∧ found = dates.take (room + 1) := by
  have searched : sundaysBetween anchors first last (room + 1) = .ok found ↔
      ∃ after before, anchors.find? first = some after ∧ anchors.find? last = some before ∧
        (after.add? 1).bind (fun next => next.firstSundaysUntil? before (room + 1)) =
          some found := by
    simp only [sundaysBetween, Attempt.bind_eq_ok, Anchors.get_eq_ok, inRange_eq_ok,
      Option.bind_eq_some_iff]
    constructor
    · rintro ⟨after, afterFound, next, moved, before, beforeFound, searched⟩
      refine ⟨after, before, afterFound, beforeFound, next, moved, ?_⟩
      split at searched
      next dates given =>
        cases searched
        exact given
      next => cases searched
    · rintro ⟨after, before, afterFound, beforeFound, next, moved, searched⟩
      refine ⟨after, afterFound, next, moved, before, beforeFound, ?_⟩
      rw [searched]
      rfl
  rw [searched]
  refine exists_congr fun after => exists_congr fun before => ?_
  obtain ⟨dates, leaves, weekly⟩ := Date.exists_weekly before (firstSundayAfter? after)
  simp only [firstSundaysUntil?_eq_some weekly, sundaySpan_iff weekly]
  constructor
  · rintro ⟨afterFound, beforeFound, onward, taken⟩
    exact ⟨dates, afterFound, beforeFound, ⟨onward, rfl⟩, taken⟩
  · rintro ⟨_, afterFound, beforeFound, ⟨onward, rfl⟩, taken⟩
    exact ⟨afterFound, beforeFound, onward, taken⟩

end Emission

end Spans

namespace Numbers

variable {before date : Date} {count last : Nat} {numbered : List (Date × Nat)}

theorem ended_iff (reached : ¬date < before) :
    Numbers before (some date) count numbered last ↔ numbered = [] ∧ last = count := by
  constructor
  · intro loop
    cases loop with
    | ended => exact ⟨rfl, rfl⟩
    | full more => exact absurd more reached
    | takes more => exact absurd more reached
  · rintro ⟨rfl, rfl⟩
    exact .ended reached

theorem full_iff (more : date < before) (passed : Emission.lastOrdinarySunday < count + 1) :
    Numbers before (some date) count numbered last ↔ numbered = [] ∧ last = count + 1 := by
  constructor
  · intro loop
    cases loop with
    | ended reached => exact absurd more reached
    | full => exact ⟨rfl, rfl⟩
    | takes _ left => exact absurd passed (Nat.not_lt.mpr left)
  · rintro ⟨rfl, rfl⟩
    exact .full more passed

theorem takes_iff (more : date < before) (left : count + 1 ≤ Emission.lastOrdinarySunday) :
    Numbers before (some date) count numbered last ↔
      ∃ rest, Numbers before (date.add? 7) (count + 1) rest last ∧
        numbered = (date, count + 1) :: rest := by
  constructor
  · intro loop
    cases loop with
    | ended reached => exact absurd more reached
    | full _ passed => exact absurd passed (Nat.not_lt.mpr left)
    | takes _ _ later => exact ⟨_, later, rfl⟩
  · rintro ⟨rest, later, rfl⟩
    exact .takes more left later

theorem iff_weekly {start : Option Date} {dates : List Date} {leaves : Bool}
    (weekly : Date.Weekly before start dates leaves) :
    Numbers before start count numbered last ↔
      (Emission.lastOrdinarySunday - count < dates.length ∨ leaves = false) ∧
        numbered = (dates.take (Emission.lastOrdinarySunday - count)).zipIdx (count + 1) ∧
        last = count + min dates.length (Emission.lastOrdinarySunday - count + 1) := by
  -- Over the days that are given out; a day that takes a number leaves one less to the rest.
  induction weekly generalizing count numbered with
  | left =>
    constructor
    · nofun
    · rintro ⟨room | stays, -⟩
      · exact absurd room (Nat.not_lt_zero _)
      · cases stays
  | ended reached => simp [ended_iff reached]
  | @gives date rest leaves more later ih =>
    by_cases passed : Emission.lastOrdinarySunday < count + 1
    · have used : Emission.lastOrdinarySunday - count = 0 := by omega
      rw [full_iff more passed, used]
      simp
    · have left : Emission.lastOrdinarySunday - count =
          Emission.lastOrdinarySunday - (count + 1) + 1 := by omega
      rw [takes_iff more (Nat.not_lt.mp passed), left]
      simp only [ih, List.length_cons, List.take_succ_cons, List.zipIdx_cons,
        Nat.add_lt_add_iff_right, Nat.add_min_add_right]
      constructor
      · rintro ⟨_, ⟨onward, rfl, rfl⟩, rfl⟩
        exact ⟨onward, rfl, by omega⟩
      · rintro ⟨onward, rfl, rfl⟩
        exact ⟨_, ⟨onward, rfl, by omega⟩, rfl⟩

end Numbers

structure OrdinaryMarkers (anchors : Anchors) where
  baptism : Date
  lent : Date
  pentecost : Date
  advent : Date
  baptism_found : anchors.find? "baptism_of_the_lord" = some baptism
  lent_found : anchors.find? "ash_wednesday" = some lent
  pentecost_found : anchors.find? "pentecost" = some pentecost
  advent_found : anchors.find? "advent_1" = some advent

namespace OrdinaryMarkers

variable {anchors : Anchors} (markers : OrdinaryMarkers anchors)

structure Spans (winter summer : List Date) : Prop where
  first : SundaySpan markers.baptism markers.lent 33 winter
  second : SundaySpan markers.pentecost markers.advent (33 - winter.length) summer

def Counts (numbered : List (Date × Nat)) : Prop :=
  ∃ winter count summer last,
    Numbers markers.lent (firstSundayAfter? markers.baptism) 1 winter count ∧
    Numbers markers.advent (firstSundayAfter? markers.pentecost) count summer last ∧
    numbered = winter ++ summer

theorem zipIdx_take_append (winter summer : List Date) :
    ((winter ++ summer).take 33).zipIdx 2 =
      (winter.take 33).zipIdx 2 ++
        (summer.take (33 - winter.length)).zipIdx (1 + min winter.length 34 + 1) := by
  rw [List.take_append, List.zipIdx_append, List.length_take]
  by_cases few : winter.length ≤ 33
  · have next : 2 + min 33 winter.length = 1 + min winter.length 34 + 1 := by omega
    rw [next]
  · have none : 33 - winter.length = 0 := by omega
    simp [none]

/-- The first loop leaves the second as many numbers as its span has not used. -/
theorem counts_iff {numbered : List (Date × Nat)} :
    markers.Counts numbered ↔
      ∃ winter summer, markers.Spans winter summer ∧
        numbered = ((winter ++ summer).take 33).zipIdx 2 := by
  obtain ⟨winter, winterLeaves, winterWeekly⟩ :=
    Date.exists_weekly markers.lent (firstSundayAfter? markers.baptism)
  obtain ⟨summer, summerLeaves, summerWeekly⟩ :=
    Date.exists_weekly markers.advent (firstSundayAfter? markers.pentecost)
  have first : ∀ {taken count}, Numbers markers.lent (firstSundayAfter? markers.baptism) 1 taken
        count ↔
      (33 < winter.length ∨ winterLeaves = false) ∧ taken = (winter.take 33).zipIdx 2 ∧
        count = 1 + min winter.length 34 := Numbers.iff_weekly winterWeekly
  have room : Emission.lastOrdinarySunday - (1 + min winter.length 34) = 33 - winter.length := by
    have last : Emission.lastOrdinarySunday = 34 := rfl
    omega
  have second : ∀ {taken last}, Numbers markers.advent (firstSundayAfter? markers.pentecost)
        (1 + min winter.length 34) taken last ↔ _ := Numbers.iff_weekly summerWeekly
  rw [room] at second
  constructor
  · rintro ⟨_, _, _, _, firstLoop, secondLoop, rfl⟩
    obtain ⟨onward, rfl, rfl⟩ := first.mp firstLoop
    obtain ⟨onwardAgain, rfl, -⟩ := second.mp secondLoop
    exact ⟨winter, summer, ⟨(sundaySpan_iff winterWeekly).mpr ⟨onward, rfl⟩,
      (sundaySpan_iff summerWeekly).mpr ⟨onwardAgain, rfl⟩⟩, (zipIdx_take_append _ _).symm⟩
  · rintro ⟨_, _, ⟨firstSpan, secondSpan⟩, rfl⟩
    obtain ⟨onward, rfl⟩ := (sundaySpan_iff winterWeekly).mp firstSpan
    obtain ⟨onwardAgain, rfl⟩ := (sundaySpan_iff summerWeekly).mp secondSpan
    exact ⟨_, _, _, _, first.mpr ⟨onward, rfl, rfl⟩, second.mpr ⟨onwardAgain, rfl, rfl⟩,
      zipIdx_take_append _ _⟩

end OrdinaryMarkers

namespace Emission

/-- Of each span one Sunday more is looked for than is numbered. -/
theorem take_take_append (winter summer : List Date) :
    (winter.take 34 ++ summer.take (33 - winter.length + 1)).take 33 = (winter ++ summer).take 33 := by
  have room : 33 - min 34 winter.length = 33 - winter.length := by omega
  rw [List.take_append, List.take_append, List.take_take, List.take_take, List.length_take, room,
    Nat.min_eq_left (by decide), Nat.min_eq_left (Nat.le_succ _)]

theorem ordinarySundays_eq_ok {anchors : Anchors} {numbered : List (Date × Int)} :
    ordinarySundays anchors = .ok numbered ↔
      ∃ (markers : OrdinaryMarkers anchors) (winter summer : List Date),
        markers.Spans winter summer ∧
        numbered =
          (((winter ++ summer).take 33).zipIdx 2).map fun (date, n) => (date, (n : Int)) := by
  have room : ∀ winter : List Date, 33 - (winter.take 34).length = 33 - winter.length := by
    intro winter
    rw [List.length_take]
    omega
  have counted : ∀ dates : List Date,
      dates.zipIdx.map (fun (date, index) => (date, (index : Int) + 2)) =
        (dates.zipIdx 2).map fun (date, n) => (date, (n : Int)) := by
    intro dates
    rw [@List.zipIdx_eq_map_add _ dates 2, List.map_map]
    refine List.map_congr_left fun ⟨date, index⟩ _ => ?_
    simp [Int.add_comm]
  have numbers : lastOrdinarySunday - 1 = 33 := rfl
  simp only [ordinarySundays, Attempt.bind_eq_ok, Attempt.pure_eq_ok, numbers, Nat.reduceAdd]
  constructor
  · rintro ⟨_, first, _, second, rfl⟩
    obtain ⟨baptism, lent, winter, baptismFound, lentFound, winterSpan, rfl⟩ :=
      sundaysBetween_eq_ok.mp first
    rw [room] at second
    obtain ⟨pentecost, advent, summer, pentecostFound, adventFound, summerSpan, rfl⟩ :=
      sundaysBetween_eq_ok.mp second
    refine ⟨⟨baptism, lent, pentecost, advent, baptismFound, lentFound, pentecostFound,
      adventFound⟩, winter, summer, ⟨winterSpan, summerSpan⟩, ?_⟩
    rw [take_take_append]
    exact counted _
  · rintro ⟨markers, winter, summer, ⟨winterSpan, summerSpan⟩, rfl⟩
    refine ⟨_, sundaysBetween_eq_ok.mpr ⟨_, _, winter, markers.baptism_found, markers.lent_found,
      winterSpan, rfl⟩, summer.take (33 - winter.length + 1), ?_, ?_⟩
    · rw [room]
      exact sundaysBetween_eq_ok.mpr ⟨_, _, summer, markers.pentecost_found, markers.advent_found,
        summerSpan, rfl⟩
    · rw [take_take_append]
      exact counted _

theorem map_fst_numbered (winter summer : List Date) :
    ((((winter ++ summer).take 33).zipIdx 2).map fun (date, n) => (date, (n : Int))).map Prod.fst =
      winter.take 33 ++ summer.take (33 - winter.length) := by
  rw [List.map_map, ← List.take_append]
  exact List.zipIdx_map_fst 2 _

theorem ordinarySundays_eq_ok_iff_counts {anchors : Anchors} {numbered : List (Date × Int)} :
    ordinarySundays anchors = .ok numbered ↔
      ∃ (markers : OrdinaryMarkers anchors) (counted : List (Date × Nat)),
        markers.Counts counted ∧ numbered = counted.map fun (date, n) => (date, (n : Int)) := by
  rw [ordinarySundays_eq_ok]
  simp only [OrdinaryMarkers.counts_iff]
  constructor
  · rintro ⟨markers, winter, summer, spans, rfl⟩
    exact ⟨markers, _, ⟨winter, summer, spans, rfl⟩, rfl⟩
  · rintro ⟨markers, _, ⟨winter, summer, spans, rfl⟩, rfl⟩
    exact ⟨markers, winter, summer, spans, rfl⟩

/-- The Sundays in Ordinary Time are the first 33 of the Sundays between the Baptism of the Lord and
Lent and those between Pentecost and Advent, numbered from two; what the first span uses up of the
numbers is missing from the second. The Sundays of a span come to an end, all of them are given out
in order, and the calendar is left after them just if no Sunday follows on which the search for more
could end. -/
theorem ordinarySundays_exact :
    (∀ (anchors : Anchors) (numbered : List (Date × Int)),
      (ordinarySundays anchors = .ok numbered ↔
        ∃ (markers : OrdinaryMarkers anchors) (winter summer : List Date),
          markers.Spans winter summer ∧
          numbered =
            (((winter ++ summer).take 33).zipIdx 2).map (fun (date, n) => (date, (n : Int))) ∧
          numbered.map Prod.fst = winter.take 33 ++ summer.take (33 - winter.length)) ∧
      (ordinarySundays anchors = .ok numbered ↔
        ∃ (markers : OrdinaryMarkers anchors) (counted : List (Date × Nat)),
          markers.Counts counted ∧ numbered = counted.map fun (date, n) => (date, (n : Int)))) ∧
    ∀ first stop : Date, ∃ (dates : List Date) (leaves : Bool),
      (∀ others othersLeave, Date.Weekly stop (first.nextWeekday? 0 true) others othersLeave ↔
        others = dates ∧ othersLeave = leaves) ∧
      Date.Ascending (fun day => day.weekday = 0 ∧ first ≤ day ∧ day < stop) dates ∧
      (leaves = true ↔
        ¬∃ sunday : Date, sunday.weekday = 0 ∧ first ≤ sunday ∧ stop ≤ sunday) ∧
      first.sundaysUntil? stop = (if leaves then none else some dates) ∧
      ∀ limit : Nat, first.firstSundaysUntil? stop (limit + 1) =
        if limit < dates.length then some (dates.take (limit + 1))
        else if leaves then none else some dates := by
  refine ⟨fun anchors numbered => ⟨?_, ordinarySundays_eq_ok_iff_counts⟩, fun first stop => ?_⟩
  · rw [ordinarySundays_eq_ok]
    constructor
    · rintro ⟨markers, winter, summer, spans, rfl⟩
      exact ⟨markers, winter, summer, spans, rfl, map_fst_numbered winter summer⟩
    · rintro ⟨markers, winter, summer, spans, same, -⟩
      exact ⟨markers, winter, summer, spans, same⟩
  · obtain ⟨dates, leaves, weekly⟩ := Date.exists_weekly stop (first.nextWeekday? 0 true)
    obtain ⟨ascending, leaving⟩ := weekly.sundays
    refine ⟨dates, leaves, fun others othersLeave => ⟨fun also => also.unique weekly, ?_⟩, ascending,
      leaving, Date.sundaysUntil?_eq weekly, Date.firstSundaysUntil?_eq weekly⟩
    rintro ⟨rfl, rfl⟩
    exact weekly

/-- Of 34 Sundays before Lent the last takes no number, and none is left for those before Advent. -/
example :
    ∃ numbered, ordinarySundays (.plain [
        ("baptism_of_the_lord", ⟨739256, by decide, by decide⟩),
        ("ash_wednesday", ⟨739501, by decide, by decide⟩),
        ("pentecost", ⟨739501, by decide, by decide⟩),
        ("advent_1", ⟨739592, by decide, by decide⟩)]) = .ok numbered ∧
      numbered.length = 33 ∧
      numbered.getLast?.map (fun (date, n) => (date.iso, n)) = some ("2025-08-24", 34) := by
  refine ⟨_, rfl, ?_, ?_⟩
  · decide +kernel
  · decide +kernel

end Emission

end FeastCalendar
