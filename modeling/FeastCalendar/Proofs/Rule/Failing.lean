import FeastCalendar.Proofs.Rule.Checked
import FeastCalendar.Rule.Phrase
import FeastCalendar.Rule.Resolve

/-!
All that a rule can fail by. What is true of a missing anchor and of the four other ways to fail is
true of every failure of a rule; what is true of the refusals of the checks and of numbers that are
too long is true of every failure to read a wording.
-/

namespace FeastCalendar
open Attempt (FailsOnly)

/-- Admits whatever a rule can fail by that is not for want of an anchor. -/
structure Failure.AdmitsRules (allowed : Failure → Prop) : Prop
    extends AdmitsChecks allowed True where
  unread : ∀ text, allowed (.fault { cause := .unreadText text })
  beyond : allowed (.date .beyondRange)
  wrongType : ∀ cause, allowed (.wrongType cause)

variable {allowed : Failure → Prop}

theorem failsOnly_inRange (beyond : allowed (.date .beyondRange)) (found : Option Civil.Date) :
    FailsOnly allowed (inRange found) := by
  intro failure refused
  obtain ⟨-, rfl⟩ := inRange_eq_error.mp refused
  exact beyond

theorem Anchors.getForRule_failsOnly {anchors : Anchors} {key : Text} {given : Json}
    (missing : anchors.find? key = none → allowed (.fault {
      cause := .unknownAnchor key
      year := match anchors with
        | .table own => Fault.yearGiven own.year
        | .plain _ => Fault.yearGiven given })) :
    FailsOnly allowed (anchors.getForRule key given) := by
  cases anchors with
  | table own =>
    rw [getForRule, AnchorTable.get]
    cases absent : own.find? key with
    | some date => exact Attempt.failsOnly_ok date
    | none => exact Attempt.failsOnly_error (missing absent)
  | plain own =>
    simp only [getForRule]
    cases absent : Keyed.find? own key with
    | some date => exact Attempt.failsOnly_ok date
    | none => exact Attempt.failsOnly_error (missing absent)

theorem Rule.fixedDate_failsOnly (admits : Failure.AdmitsRules allowed) (given : Json)
    (month day : Int) : FailsOnly allowed (fixedDate given month day) := by
  unfold fixedDate
  split
  · exact Attempt.failsOnly_error (admits.wrongType .other)
  · split
    · exact Attempt.failsOnly_ok _
    · exact Attempt.failsOnly_error admits.beyond
    · exact Attempt.failsOnly_error
        (admits.refused _ ((Invalid.oneLine_message_iff _).mpr (List.forall_mem_nil _)))

theorem Rule.borrowedKey_failsOnly (admits : Failure.AdmitsRules allowed) (key : Option Key)
    (feast : Option RuleSlot) : FailsOnly allowed (borrowedKey key feast) := by
  unfold borrowedKey
  split
  · exact Attempt.failsOnly_ok _
  · exact Attempt.failsOnly_ok _
  · exact Attempt.failsOnly_error
      (admits.refused _ ((Invalid.oneLine_message_iff _).mpr (List.forall_mem_nil _)))

theorem Rule.dateIn_failsOnly (admits : Failure.AdmitsRules allowed) {given : Json}
    {anchors : Anchors} (missing : ∀ key, FailsOnly allowed (anchors.getForRule key given))
    (rule : Rule) (feast : Option RuleSlot) :
    FailsOnly allowed (rule.dateIn given anchors feast) := by
  have reached : ∀ found, FailsOnly allowed (inRange found) := failsOnly_inRange admits.beyond
  cases rule with
  | fixed month day => exact fixedDate_failsOnly admits given month.val day.val
  | anchor key => exact missing key.val
  | relative key offset weekday policy =>
    refine (missing key.val).bind fun date _ => (reached _).bind fun moved _ => ?_
    split
    · exact reached _
    · exact Attempt.failsOnly_ok _
  | nthWeekdayAfter key weekday count => exact (missing key.val).bind fun date _ => reached _
  | beforeFeast days key =>
    exact (borrowedKey_failsOnly admits key feast).bind fun own _ =>
      (missing own.val).bind fun date _ => reached _
  | raw text => exact Attempt.failsOnly_error (admits.unread text)

theorem RuleSlot.dateIn_failsOnly (admits : Failure.AdmitsRules allowed) {given : Json}
    {anchors : Anchors} (missing : ∀ key, FailsOnly allowed (anchors.getForRule key given))
    (slot : RuleSlot) (feast : Option RuleSlot) :
    FailsOnly allowed (slot.dateIn given anchors feast) := by
  cases slot with
  | rule placed => exact placed.dateIn_failsOnly admits missing feast
  | stray value => exact Attempt.failsOnly_error (admits.wrongType _)

namespace Phrase

section Shapes

variable {α β : Type}

/-- Whatever is read, if anything is, fails in allowed ways only. -/
def ReadsOnly (allowed : Failure → Prop) (read : Option (Except Failure α)) : Prop :=
  ∀ attempt, read = some attempt → FailsOnly allowed attempt

theorem readsOnly_none : ReadsOnly allowed (none : Option (Except Failure α)) :=
  fun _ read => nomatch read

theorem readsOnly_some {attempt : Except Failure α} (fits : FailsOnly allowed attempt) :
    ReadsOnly allowed (some attempt) := by
  intro own same
  cases same
  exact fits

theorem readsOnly_bind {found : Option β} {next : β → Option (Except Failure α)}
    (rest : ∀ value, found = some value → ReadsOnly allowed (next value)) :
    ReadsOnly allowed (found >>= next) := by
  intro attempt read
  obtain ⟨value, here, later⟩ := Option.bind_eq_some_iff.mp read
  exact rest value here attempt later

end Shapes

variable (admits : Failure.AdmitsChecks allowed False) (numerals : ∀ cause, allowed (.numeral cause))

include numerals in
theorem number?_readsOnly (word : String) : ReadsOnly allowed (number? word) := by
  unfold number?
  split
  · exact readsOnly_some (Attempt.failsOnly_mapError fun cause _ => numerals cause)
  · intro count read
    obtain ⟨n, -, rfl⟩ := Option.map_eq_some_iff.mp read
    exact Attempt.failsOnly_ok n

include numerals in
theorem counted_readsOnly {word : String} {count : Except Failure Nat}
    (known : number? word = some count) {shaped : Prop} [Decidable shaped]
    {next : Nat → Except Failure Rule} (fits : ∀ n, FailsOnly allowed (next n)) :
    ReadsOnly allowed (if shaped then some (count >>= next) else none) := by
  split
  · apply readsOnly_some
    exact (number?_readsOnly numerals word count known).bind fun n _ => fits n
  · exact readsOnly_none

include admits in
theorem relative_failsOnly (anchor : Json) (offset : Int)
    (snap : Option (Int × Civil.SnapPolicy)) : FailsOnly allowed (relative anchor offset snap) := by
  unfold relative
  split
  · exact Rule.relative?_failsOnly admits nofun nofun nofun nofun
  · exact Rule.relative?_failsOnly admits nofun nofun nofun nofun

include admits numerals in
theorem beforeFeast?_readsOnly (words : List String) : ReadsOnly allowed (beforeFeast? words) := by
  unfold beforeFeast?
  split
  · apply readsOnly_bind
    intro count known
    exact counted_readsOnly numerals known fun n => Rule.beforeFeast?_failsOnly admits nofun nofun
  · exact readsOnly_none

include admits in
theorem fixed?_readsOnly (words : List String) : ReadsOnly allowed (fixed? words) := by
  unfold fixed?
  split
  · apply readsOnly_bind
    intro month _
    apply readsOnly_bind
    intro day _
    split
    · exact readsOnly_some (Rule.fixed?_failsOnly admits nofun nofun)
    · exact readsOnly_none
  · exact readsOnly_none

include admits numerals in
theorem weekdayDaysBefore?_readsOnly (words : List String) :
    ReadsOnly allowed (weekdayDaysBefore? words) := by
  unfold weekdayDaysBefore?
  split
  · apply readsOnly_bind
    intro weekday _
    apply readsOnly_bind
    intro count known
    apply readsOnly_bind
    intro anchor _
    exact counted_readsOnly numerals known fun n => relative_failsOnly admits _ _ _
  · exact readsOnly_none

include admits numerals in
theorem daysBefore?_readsOnly (words : List String) : ReadsOnly allowed (daysBefore? words) := by
  unfold daysBefore?
  split
  · apply readsOnly_bind
    intro count known
    apply readsOnly_bind
    intro anchor _
    exact counted_readsOnly numerals known fun n => relative_failsOnly admits _ _ _
  · exact readsOnly_none

include admits numerals in
theorem daysAfter?_readsOnly (words : List String) : ReadsOnly allowed (daysAfter? words) := by
  unfold daysAfter?
  split
  · apply readsOnly_bind
    intro count known
    apply readsOnly_bind
    intro anchor _
    exact counted_readsOnly numerals known fun n => relative_failsOnly admits _ _ _
  · exact readsOnly_none

include admits in
theorem weekdayAfter?_readsOnly (words : List String) : ReadsOnly allowed (weekdayAfter? words) := by
  unfold weekdayAfter?
  dsimp only
  split
  · apply readsOnly_bind
    intro weekday _
    apply readsOnly_bind
    intro anchor _
    exact readsOnly_some (Rule.nthWeekdayAfter?_failsOnly admits nofun nofun nofun)
  · exact readsOnly_none

include admits in
theorem weekdayBefore?_readsOnly (words : List String) : ReadsOnly allowed (weekdayBefore? words) := by
  unfold weekdayBefore?
  split
  · apply readsOnly_bind
    intro weekday _
    apply readsOnly_bind
    intro anchor _
    exact readsOnly_some (relative_failsOnly admits _ _ _)
  · exact readsOnly_none

include admits numerals in
theorem shapes_readsOnly (words : List String) :
    ∀ shape ∈ shapes, ReadsOnly allowed (shape words) := by
  simp only [shapes, List.forall_mem_cons]
  exact ⟨beforeFeast?_readsOnly admits numerals words, fixed?_readsOnly admits words,
    weekdayDaysBefore?_readsOnly admits numerals words, daysBefore?_readsOnly admits numerals words,
    daysAfter?_readsOnly admits numerals words, weekdayAfter?_readsOnly admits words,
    weekdayBefore?_readsOnly admits words, List.forall_mem_nil _⟩

include admits numerals in
theorem parse_failsOnly (text : String) (known : List Text) :
    FailsOnly allowed (parse text known) := by
  unfold parse
  split
  next rule found =>
    obtain ⟨shape, listed, read⟩ := List.exists_of_findSome?_eq_some found
    exact shapes_readsOnly admits numerals (words text) shape listed rule read
  next =>
    dsimp only
    split
    · exact Rule.anchor?_failsOnly admits nofun
    · exact Attempt.failsOnly_ok _

end Phrase

end FeastCalendar
