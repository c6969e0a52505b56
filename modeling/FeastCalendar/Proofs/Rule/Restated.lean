import FeastCalendar.Proofs.Civil.Search
import FeastCalendar.Proofs.Rule.Reach
import FeastCalendar.Proofs.Rule.Settled

/-!
Rules in terms of the relative rule. The search for the `count`th day of a weekday after an anchor
comes to the day that a shift and one move to the weekday come to, and leaves the calendar where
they do; a span before a feast is a shift back from its anchor.
-/

namespace FeastCalendar
open Civil (Date lastDay)

namespace Civil.Date

/-- A shift that stops short of the day and a move on to its weekday leave the calendar just if the
search does. -/
theorem shift_align_eq {weekday count : Int} (weekdays : 0 ≤ weekday ∧ weekday ≤ 6)
    (positive : 1 ≤ count) (date : Date) :
    (inRange (date.add? (7 * (count - 1) + 1)) >>= fun moved =>
        inRange (moved.align? weekday .onOrAfter)) =
      inRange (date.nthWeekdayAfter? weekday count) := by
  rw [nthWeekdayAfter?_eq weekdays positive]
  cases shifted : date.add? (7 * (count - 1) + 1) with
  | none =>
    have beyond := add?_eq_none_iff.mp shifted
    have low := date.one_le
    have absent : ofNumber?
        (date.number + 1 + (weekday - date.number - 1) % 7 + 7 * (count - 1)) = none := by
      rw [ofNumber?_eq_none_iff]
      omega
    rw [absent]
    rfl
  | some moved =>
    have number : moved.number = date.number + (7 * (count - 1) + 1) := number_of_ofNumber? shifted
    have target : moved.number + (weekday - moved.number) % 7 =
        date.number + 1 + (weekday - date.number - 1) % 7 + 7 * (count - 1) := by
      omega
    rw [inRange, Attempt.ok_bind, align?_onOrAfter, target]

end Civil.Date

namespace Rule

variable {year : Json} {anchors : Anchors} {feast : Option RuleSlot}

theorem sameOutcome_of_dateIn {rule other : Rule}
    (same : rule.dateIn year anchors feast = other.dateIn year anchors feast) :
    SameOutcome (rule.resolve year anchors feast) (other.resolve year anchors feast) := by
  have start : SameOutcome ((RuleSlot.rule rule).dateIn year anchors feast)
      ((RuleSlot.rule other).dateIn year anchors feast) := congrArg _ same
  exact start.within none (Fault.yearGiven year) (some (.rule rule)) (some (.rule other))

theorem dateIn_nthWeekdayAfter (key : Key) (weekday : Weekday) (count : Count) :
    (nthWeekdayAfter key weekday count).dateIn year anchors feast =
      (relative key (7 * (count.val - 1) + 1) (some weekday) .onOrAfter).dateIn year anchors
        feast := by
  refine Attempt.bind_congr fun date _ => ?_
  exact (date.shift_align_eq weekday.property count.property).symm

theorem dateIn_beforeFeast (days : Count) (key : Key) (policy : Civil.SnapPolicy) :
    (beforeFeast days (some key)).dateIn year anchors feast =
      (relative key (-(days.val - 1)) none policy).dateIn year anchors feast := by
  have counted : (beforeFeast days (some key)).dateIn year anchors feast =
      anchors.getForRule key.val year >>= fun date =>
        inRange (date.add? (-(days.val - 1))) := rfl
  rw [counted]
  refine Attempt.bind_congr fun date _ => ?_
  exact (bind_pure _).symm

/-- The search day by day always ends: on the day that one reckoning gives, if the weekday and the
count are sound and the calendar holds the day, and beyond the calendar otherwise. So the rules that
use it, and those that count days before a feast, can be told as relative rules, which give the same
dates and fail alike. -/
theorem search_restated :
    (∀ (date : Date) (weekday count : Int),
      (∀ result, Date.Scans weekday count (date.add? 1) 0 result ↔
        date.nthWeekdayAfter? weekday count = result) ∧
      (∀ found, date.nthWeekdayAfter? weekday count = some found ↔
        ((0 ≤ weekday ∧ weekday ≤ 6) ∧ 1 ≤ count) ∧
          found.number =
            date.number + 1 + (weekday - date.weekday - 1) % 7 + 7 * (count - 1)) ∧
      (inRange (date.nthWeekdayAfter? weekday count) = .error (.date .beyondRange) ↔
        ¬(((0 ≤ weekday ∧ weekday ≤ 6) ∧ 1 ≤ count) ∧
          date.number + 1 + (weekday - date.weekday - 1) % 7 + 7 * (count - 1) ≤ lastDay))) ∧
    ∀ (key : Key) (year : Json) (anchors : Anchors) (feast : Option RuleSlot),
      (∀ weekday count, SameOutcome ((nthWeekdayAfter key weekday count).resolve year anchors feast)
        ((relative key (7 * (count.val - 1) + 1) (some weekday) .onOrAfter).resolve year anchors
          feast)) ∧
      ∀ days policy, SameOutcome ((beforeFeast days (some key)).resolve year anchors feast)
        ((relative key (-(days.val - 1)) none policy).resolve year anchors feast) := by
  refine ⟨fun date weekday count => ⟨date.scans_iff weekday count, ?_, ?_⟩, ?_⟩
  · exact fun found => Date.nthWeekdayAfter?_eq_some_iff
  · rw [inRange_eq_error, and_iff_left rfl]
    exact Date.nthWeekdayAfter?_eq_none_iff
  · intro key year anchors feast
    refine ⟨fun weekday count => ?_, fun days policy => ?_⟩
    · exact sameOutcome_of_dateIn (dateIn_nthWeekdayAfter key weekday count)
    · exact sameOutcome_of_dateIn (dateIn_beforeFeast days key policy)

end Rule

end FeastCalendar
