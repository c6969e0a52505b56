import Mathlib.Data.List.Sort
import FeastCalendar.Proofs.Civil.Weekday

/-!
The searches for weekdays, turn by turn. A search is told by the day on which it stands, which is
none once a step has left the calendar, and by what it comes to; a search without an end would come
to nothing at all. Every search ends, and the reckonings that bound their turns give what it comes
to.
-/

namespace FeastCalendar.Civil.Date

/-- A search day by day for the `count`th day of a weekday, with so many counted before. -/
inductive Scans (weekday count : Int) : Option Date → Int → Option Date → Prop
  | left (counted : Int) : Scans weekday count none counted none
  | found {date : Date} {counted : Int} (own : date.weekday = weekday) (last : counted + 1 = count) :
    Scans weekday count (some date) counted (some date)
  | counts {date : Date} {counted : Int} {result : Option Date} (own : date.weekday = weekday)
    (more : counted + 1 ≠ count) (later : Scans weekday count (date.add? 1) (counted + 1) result) :
    Scans weekday count (some date) counted result
  | passes {date : Date} {counted : Int} {result : Option Date} (other : date.weekday ≠ weekday)
    (later : Scans weekday count (date.add? 1) counted result) :
    Scans weekday count (some date) counted result

section Scans

variable {weekday count counted : Int} {date : Date} {result : Option Date}

theorem scans_none_iff : Scans weekday count none counted result ↔ none = result := by
  constructor
  · intro scans
    cases scans
    rfl
  · rintro rfl
    exact .left counted

theorem scans_some_iff :
    Scans weekday count (some date) counted result ↔
      if date.weekday = weekday ∧ counted + 1 = count then some date = result
      else Scans weekday count (date.add? 1)
        (if date.weekday = weekday then counted + 1 else counted) result := by
  by_cases own : date.weekday = weekday
  · by_cases last : counted + 1 = count
    · rw [if_pos ⟨own, last⟩]
      constructor
      · intro scans
        cases scans with
        | found => rfl
        | counts _ more => exact absurd last more
        | passes other => exact absurd own other
      · rintro rfl
        exact .found own last
    · rw [if_neg (fun both => last both.2), if_pos own]
      constructor
      · intro scans
        cases scans with
        | found _ same => exact absurd same last
        | counts _ _ later => exact later
        | passes other => exact absurd own other
      · exact .counts own last
  · rw [if_neg (fun both => own both.1), if_neg own]
    constructor
    · intro scans
      cases scans with
      | found same => exact absurd same own
      | counts same => exact absurd same own
      | passes _ later => exact later
    · exact .passes own

theorem scans_iff_of_enough {fuel : Nat} (enough : lastDay < date.number + fuel) :
    Scans weekday count (some date) counted result ↔
      scanWeekday weekday (count - counted) fuel date = result := by
  induction fuel generalizing counted date with
  | zero =>
    have last := date.le_last
    omega
  | succ fuel ih =>
    have one : counted + 1 = count ↔ count - counted = 1 := by omega
    rw [scans_some_iff, scanWeekday]
    simp only [Bool.and_eq_true, decide_eq_true_eq, one]
    split
    · rfl
    · cases step : date.add? 1 with
      | none => exact scans_none_iff
      | some next =>
        have number : next.number = date.number + 1 := number_of_ofNumber? step
        rw [ih (by omega)]
        simp only
        split
        · rw [show count - counted - 1 = count - (counted + 1) by omega]
        · rfl

theorem scans_iff (date : Date) (weekday count : Int) (result : Option Date) :
    Scans weekday count (date.add? 1) 0 result ↔
      date.nthWeekdayAfter? weekday count = result := by
  rw [nthWeekdayAfter?]
  cases step : date.add? 1 with
  | none => exact scans_none_iff
  | some next =>
    have number : next.number = date.number + 1 := number_of_ofNumber? step
    have low := date.one_le
    have last := date.le_last
    rw [scans_iff_of_enough (by omega : lastDay < next.number + (lastDay - date.number).toNat),
      Int.sub_zero]

theorem scanWeekday_of_stray (stray : ¬((0 ≤ weekday ∧ weekday ≤ 6) ∧ 1 ≤ count)) (fuel : Nat)
    (date : Date) : scanWeekday weekday count fuel date = none := by
  induction fuel generalizing count date with
  | zero => rfl
  | succ fuel ih =>
    have own := date.weekday_bounds
    have unfound : ¬(date.weekday = weekday ∧ count = 1) := by omega
    rw [scanWeekday, if_neg (by simpa using unfound)]
    cases date.add? 1 with
    | none => rfl
    | some next =>
      simp only
      apply ih
      split <;> omega

def nthDay (date : Date) (weekday count : Int) : Int :=
  date.number + 1 + (weekday - date.weekday - 1) % 7 + 7 * (count - 1)

theorem nthDay_eq (date : Date) (weekday count : Int) :
    date.nthDay weekday count =
      date.number + 1 + (weekday - date.number - 1) % 7 + 7 * (count - 1) := by
  have remainder : date.weekday = date.number % 7 := rfl
  unfold nthDay
  omega

theorem nthWeekdayAfter?_eq_some_iff {found : Date} :
    date.nthWeekdayAfter? weekday count = some found ↔
      ((0 ≤ weekday ∧ weekday ≤ 6) ∧ 1 ≤ count) ∧ found.number = date.nthDay weekday count := by
  by_cases sound : (0 ≤ weekday ∧ weekday ≤ 6) ∧ 1 ≤ count
  · rw [nthWeekdayAfter?_eq sound.1 sound.2, nthDay_eq, ofNumber?_eq_some_iff]
    exact (and_iff_right sound).symm
  · have none : date.nthWeekdayAfter? weekday count = none := by
      rw [nthWeekdayAfter?]
      split
      · exact scanWeekday_of_stray sound _ _
      · rfl
    rw [none]
    constructor
    · intro found
      cases found
    · rintro ⟨reached, -⟩
      exact absurd reached sound

theorem nthWeekdayAfter?_eq_none_iff :
    date.nthWeekdayAfter? weekday count = none ↔
      ¬(((0 ≤ weekday ∧ weekday ≤ 6) ∧ 1 ≤ count) ∧ date.nthDay weekday count ≤ lastDay) := by
  have low := date.one_le
  have forward : 1 ≤ count → 1 ≤ date.nthDay weekday count := by
    unfold nthDay
    omega
  rw [Option.eq_none_iff_forall_ne_some]
  simp only [ne_eq, nthWeekdayAfter?_eq_some_iff, not_and]
  constructor
  · intro absent sound held
    obtain ⟨found, -, number⟩ := exists_ofNumber? ⟨forward sound.2, held⟩
    exact absent found sound number
  · intro beyond found sound number
    exact beyond sound (number ▸ found.le_last)

end Scans

structure Ascending (meets : Date → Prop) (dates : List Date) : Prop where
  ordered : dates.Pairwise (· < ·)
  mem_iff : ∀ date, date ∈ dates ↔ meets date

namespace Ascending

variable {meets other : Date → Prop} {dates rest : List Date}

theorem congr (ascending : Ascending meets dates) (same : ∀ date, meets date ↔ other date) :
    Ascending other dates :=
  ⟨ascending.ordered, fun date => (ascending.mem_iff date).trans (same date)⟩

theorem of_none (never : ∀ date, ¬meets date) : Ascending meets [] :=
  ⟨.nil, fun date => ⟨nofun, fun met => absurd met (never date)⟩⟩

theorem cons {first : Date} (own : meets first) (least : ∀ date, meets date → first ≤ date)
    (later : Ascending (fun date => meets date ∧ first < date) rest) :
    Ascending meets (first :: rest) := by
  refine ⟨.cons (fun date member => ((later.mem_iff date).mp member).2) later.ordered, ?_⟩
  intro date
  rw [List.mem_cons, later.mem_iff]
  constructor
  · rintro (rfl | ⟨met, -⟩)
    · exact own
    · exact met
  · intro met
    rcases Int.lt_or_eq_of_le (least date met) with after | same
    · exact Or.inr ⟨met, after⟩
    · exact Or.inl (eq_of_number same.symm)

theorem unique {others : List Date} (ascending : Ascending meets dates)
    (also : Ascending meets others) : dates = others := by
  have irreflexive : Std.Irrefl (fun left right : Date => left < right) :=
    ⟨fun date => Int.lt_irrefl date.number⟩
  have antisymmetric : Std.Antisymm (fun left right : Date => left < right) :=
    ⟨fun _ _ before after => absurd (Int.lt_trans before after) (Int.lt_irrefl _)⟩
  exact ascending.ordered.eq_of_mem_iff also.ordered fun date =>
    (ascending.mem_iff date).trans (also.mem_iff date).symm

end Ascending

/-- Every seventh day before `stop`, given out one by one; the flag says that the step past the last
one left the calendar. -/
inductive Weekly (stop : Date) : Option Date → List Date → Bool → Prop
  | left : Weekly stop none [] true
  | ended {date : Date} (reached : ¬date < stop) : Weekly stop (some date) [] false
  | gives {date : Date} {rest : List Date} {leaves : Bool} (before : date < stop)
    (later : Weekly stop (date.add? 7) rest leaves) : Weekly stop (some date) (date :: rest) leaves

section Weekly

variable {stop date : Date} {start : Option Date} {dates : List Date} {leaves : Bool}

theorem Weekly.unique {others : List Date} {othersLeave : Bool}
    (weekly : Weekly stop start dates leaves) (also : Weekly stop start others othersLeave) :
    dates = others ∧ leaves = othersLeave := by
  induction weekly generalizing others with
  | left =>
    cases also
    exact ⟨rfl, rfl⟩
  | ended reached =>
    cases also with
    | ended => exact ⟨rfl, rfl⟩
    | gives before => exact absurd before reached
  | gives before _ ih =>
    cases also with
    | ended reached => exact absurd before reached
    | gives _ later =>
      obtain ⟨rfl, rfl⟩ := ih later
      exact ⟨rfl, rfl⟩

theorem exists_weekly (stop : Date) (start : Option Date) :
    ∃ dates leaves, Weekly stop start dates leaves := by
  have within : ∀ (weeks : Nat) (date : Date), stop.number ≤ date.number + 7 * weeks →
      ∃ dates leaves, Weekly stop (some date) dates leaves := by
    intro weeks
    induction weeks with
    | zero =>
      intro date reached
      refine ⟨[], false, .ended ?_⟩
      rw [lt_iff]
      omega
    | succ weeks ih =>
      intro date near
      by_cases before : date < stop
      · cases step : date.add? 7 with
        | none => exact ⟨[date], true, .gives before (step ▸ .left)⟩
        | some next =>
          have number : next.number = date.number + 7 := number_of_ofNumber? step
          obtain ⟨rest, leaves, later⟩ := ih next (by omega)
          exact ⟨date :: rest, leaves, .gives before (step ▸ later)⟩
      · exact ⟨[], false, .ended before⟩
  cases start with
  | none => exact ⟨[], true, .left⟩
  | some date => exact within (stop.number - date.number).toNat date (by omega)

theorem Weekly.length_le (weekly : Weekly stop (some date) dates leaves) :
    dates.length ≤ (stop.number - date.number).toNat := by
  generalize same : some date = start at weekly
  induction weekly generalizing date with
  | left => cases same
  | ended => exact Nat.zero_le _
  | @gives own rest leaves before later ih =>
    obtain rfl := Option.some.inj same
    rw [lt_iff] at before
    rw [List.length_cons]
    cases step : date.add? 7 with
    | none =>
      rw [step] at later
      cases later
      simp only [List.length_nil]
      omega
    | some next =>
      have number : next.number = date.number + 7 := number_of_ofNumber? step
      have bound := ih step.symm
      omega

theorem week_le_of_lt {day : Date} (alike : day.weekday = date.weekday) (after : date < day) :
    date.number + 7 ≤ day.number := by
  unfold weekday at alike
  rw [lt_iff] at after
  omega

theorem not_lt_of_lastWeek (step : date.add? 7 = none) (day : Date) :
    ¬(day.weekday = date.weekday ∧ date < day) := by
  rintro ⟨alike, after⟩
  have further := week_le_of_lt alike after
  have beyond := add?_eq_none_iff.mp step
  have low := date.one_le
  have last := day.le_last
  omega

theorem nextWeek_le_iff {next : Date} (step : date.add? 7 = some next) (day : Date) :
    day.weekday = next.weekday ∧ next ≤ day ↔ day.weekday = date.weekday ∧ date < day := by
  have number : next.number = date.number + 7 := number_of_ofNumber? step
  have same : next.weekday = date.weekday := by
    unfold weekday
    omega
  rw [same]
  refine and_congr_right fun alike => ⟨fun later => ?_, fun after => ?_⟩
  · rw [le_iff] at later
    rw [lt_iff]
    omega
  · have further := week_le_of_lt alike after
    rw [le_iff]
    omega

/-- What is given out are all days of the weekday up to the end, and the calendar is left just if no
such day follows in it. -/
theorem Weekly.exact (weekly : Weekly stop (some date) dates leaves) :
    Ascending (fun day => day.weekday = date.weekday ∧ date ≤ day ∧ day < stop) dates ∧
      (leaves = true ↔ ¬∃ day : Date, day.weekday = date.weekday ∧ date ≤ day ∧ stop ≤ day) := by
  generalize same : some date = start at weekly
  induction weekly generalizing date with
  | left => cases same
  | ended reached =>
    obtain rfl := Option.some.inj same
    rw [lt_iff] at reached
    refine ⟨.of_none ?_, ?_⟩
    · simp only [lt_iff, le_iff]
      omega
    · have here : date.weekday = date.weekday ∧ date ≤ date ∧ stop ≤ date :=
        ⟨rfl, Int.le_refl _, by rw [le_iff]; omega⟩
      exact ⟨nofun, fun none => absurd ⟨date, here⟩ none⟩
  | @gives own rest leaves before later ih =>
    obtain rfl := Option.some.inj same
    have own : date.weekday = date.weekday ∧ date ≤ date ∧ date < stop :=
      ⟨rfl, Int.le_refl _, before⟩
    -- A day that the end does not come after is not this one.
    have passed : ∀ day : Date, date ≤ day ∧ stop ≤ day ↔ date < day ∧ stop ≤ day := by
      intro day
      rw [lt_iff] at before
      simp only [le_iff, lt_iff]
      omega
    simp only [passed]
    cases step : date.add? 7 with
    | none =>
      rw [step] at later
      cases later
      have alone := not_lt_of_lastWeek step
      refine ⟨.cons own (fun day met => met.2.1) (.of_none ?_), ?_⟩
      · exact fun day met => alone day ⟨met.1.1, met.2⟩
      · exact ⟨fun _ ⟨day, alike, after, _⟩ => alone day ⟨alike, after⟩, fun _ => rfl⟩
    | some next =>
      have onward := nextWeek_le_iff step
      obtain ⟨ascending, leaving⟩ := ih step.symm
      simp only [← and_assoc, onward] at ascending leaving ⊢
      refine ⟨.cons ⟨⟨rfl, Int.le_refl _⟩, before⟩ (fun day met => met.1.2)
        (ascending.congr fun day => ?_), leaving⟩
      constructor
      · rintro ⟨⟨alike, after⟩, fits⟩
        exact ⟨⟨⟨alike, Int.le_of_lt after⟩, fits⟩, after⟩
      · rintro ⟨⟨⟨alike, -⟩, fits⟩, after⟩
        exact ⟨⟨alike, after⟩, fits⟩

theorem weeklyUntil?_eq (weekly : Weekly stop (some date) dates leaves) (limit : Nat) :
    weeklyUntil? stop limit date =
      if limit ≤ dates.length then some (dates.take limit)
      else if leaves then none else some dates := by
  generalize same : some date = start at weekly
  induction weekly generalizing date limit with
  | left => cases same
  | ended reached =>
    obtain rfl := Option.some.inj same
    cases limit with
    | zero => rfl
    | succ limit =>
      rw [weeklyUntil?, if_neg reached]
      rfl
  | @gives own rest leaves before later ih =>
    obtain rfl := Option.some.inj same
    cases limit with
    | zero => rfl
    | succ limit =>
      rw [weeklyUntil?, if_pos before, List.length_cons, List.take_succ_cons]
      simp only [Nat.add_le_add_iff_right]
      cases limit with
      | zero => simp
      | succ limit =>
        rw [if_neg (by omega)]
        cases step : date.add? 7 with
        | none =>
          rw [step] at later
          cases later
          simp
        | some next =>
          simp only
          rw [ih _ step.symm]
          split
          · rfl
          · cases leaves <;> rfl

end Weekly

section Sundays

variable {first stop : Date} {dates : List Date} {leaves : Bool}

theorem Weekly.sundays (weekly : Weekly stop (first.nextWeekday? 0 true) dates leaves) :
    Ascending (fun day => day.weekday = 0 ∧ first ≤ day ∧ day < stop) dates ∧
      (leaves = true ↔
        ¬∃ sunday : Date, sunday.weekday = 0 ∧ first ≤ sunday ∧ stop ≤ sunday) := by
  rw [nextWeekday?_sameDay] at weekly
  cases found : ofNumber? (first.number + (0 - first.number) % 7) with
  | none =>
    rw [found] at weekly
    cases weekly
    have beyond := ofNumber?_eq_none_iff.mp found
    have never : ∀ day : Date, ¬(day.weekday = 0 ∧ first ≤ day) := by
      rintro day ⟨sunday, after⟩
      have low := first.one_le
      have last := day.le_last
      unfold weekday at sunday
      rw [le_iff] at after
      omega
    refine ⟨.of_none fun day met => never day ⟨met.1, met.2.1⟩, ?_⟩
    exact ⟨fun _ ⟨day, sunday, after, _⟩ => never day ⟨sunday, after⟩, fun _ => rfl⟩
  | some begun =>
    rw [found] at weekly
    have number := number_of_ofNumber? found
    have onward : ∀ day : Date,
        day.weekday = begun.weekday ∧ begun ≤ day ↔ day.weekday = 0 ∧ first ≤ day := by
      intro day
      unfold weekday
      simp only [le_iff]
      omega
    obtain ⟨ascending, leaving⟩ := weekly.exact
    simp only [← and_assoc, onward] at ascending leaving ⊢
    exact ⟨ascending, leaving⟩

theorem firstSundaysUntil?_eq (weekly : Weekly stop (first.nextWeekday? 0 true) dates leaves)
    (limit : Nat) :
    first.firstSundaysUntil? stop (limit + 1) =
      if limit < dates.length then some (dates.take (limit + 1))
      else if leaves then none else some dates := by
  rw [firstSundaysUntil?]
  cases begun : first.nextWeekday? 0 true with
  | none =>
    rw [begun] at weekly
    cases weekly
    rfl
  | some sunday =>
    rw [begun] at weekly
    exact weeklyUntil?_eq weekly (limit + 1)

theorem sundaysUntil?_eq (weekly : Weekly stop (first.nextWeekday? 0 true) dates leaves) :
    first.sundaysUntil? stop = if leaves then none else some dates := by
  have short : dates.length ≤ (stop.number - first.number).toNat := by
    cases begun : first.nextWeekday? 0 true with
    | none =>
      rw [begun] at weekly
      cases weekly
      exact Nat.zero_le _
    | some sunday =>
      rw [begun] at weekly
      rw [nextWeekday?_sameDay] at begun
      have number := number_of_ofNumber? begun
      have length := weekly.length_le
      omega
  rw [sundaysUntil?, firstSundaysUntil?_eq weekly, if_neg (Nat.not_lt.mpr short)]

end Sundays

end FeastCalendar.Civil.Date
