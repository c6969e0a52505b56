import FeastCalendar.Proofs.Novena.Span
import FeastCalendar.Proofs.Rule.Outcome

/-!
Whom a fault names. Circumstances are filled in from the inside out, and the first that is known of
each stays; so a fault of a novena names the novena, the rule that failed and the year in which it
was asked for a date.
-/

namespace FeastCalendar
open Civil (Date)

structure Circumstances where
  entry : Option Text := none
  year : Json := .null
  rule : Option RuleSlot := none

namespace Fault

def withinAll (fault : Fault) (calls : List Circumstances) : Fault :=
  calls.foldl (fun fault call => fault.within call.entry (yearGiven call.year) call.rule) fault

def firstTold {α : Type} (tellings : List (Option α)) : Option α :=
  tellings.findSome? id

@[simp] theorem firstTold_singleton {α : Type} (only : Option α) : firstTold [only] = only := by
  cases only <;> rfl

@[simp] theorem firstTold_orElse {α : Type} (first second : Option α) (rest : List (Option α)) :
    firstTold ((first <|> second) :: rest) = firstTold (first :: second :: rest) := by
  cases first <;> rfl

theorem withinAll_first (fault : Fault) (calls : List Circumstances) :
    (fault.withinAll calls).entry = firstTold (fault.entry :: calls.map (·.entry)) ∧
      (fault.withinAll calls).year =
        firstTold (fault.year :: calls.map fun call => yearGiven call.year) ∧
      (fault.withinAll calls).rule = firstTold (fault.rule :: calls.map (·.rule)) ∧
      (fault.withinAll calls).cause = fault.cause := by
  induction calls generalizing fault with
  | nil => simp [withinAll]
  | cons call rest ih =>
    obtain ⟨entry, year, rule, cause⟩ :=
      ih (fault.within call.entry (yearGiven call.year) call.rule)
    simp only [within, firstTold_orElse] at entry year rule
    exact ⟨entry, year, rule, cause⟩

end Fault

section Rules

variable {given : Json} {anchors : Anchors}

/-- The year that a fault of a rule tells: that of the table for a missing anchor, if it has one, and
else the year in which the rule is asked for a date. -/
def Anchors.yearOfFault (anchors : Anchors) (given : Json) : Cause → Option Json
  | .unknownAnchor _ => Fault.yearGiven (anchors.yearOfMissing given)
  | _ => Fault.yearGiven given

/-- A failure as a rule first meets it: of the circumstances it tells at most the year, which is
made up to the right one where it tells none. -/
def Failure.Untold (given : Json) (anchors : Anchors) (failure : Failure) : Prop :=
  ∀ fault, failure = .fault fault → fault.entry = none ∧ fault.rule = none ∧
    (fault.year <|> Fault.yearGiven given) = anchors.yearOfFault given fault.cause ∧
    ∀ key, fault.cause = .unknownAnchor key → anchors.find? key = none

theorem Failure.admitsRules_untold : AdmitsRules (Untold given anchors) where
  refused _ _ := by
    rintro _ ⟨⟩
    exact ⟨rfl, rfl, rfl, nofun⟩
  unread _ := by
    rintro _ ⟨⟩
    exact ⟨rfl, rfl, rfl, nofun⟩
  unwritable _ := fun _ same => nomatch same
  beyond := fun _ same => nomatch same
  wrongType _ := fun _ same => nomatch same

theorem Anchors.getForRule_untold (key : Text) :
    Attempt.FailsOnly (Failure.Untold given anchors) (anchors.getForRule key given) := by
  refine Anchors.getForRule_failsOnly fun absent => ?_
  rintro _ ⟨⟩
  refine ⟨rfl, rfl, ?_, ?_⟩
  · cases anchors with
    | table own =>
      simp only [yearOfFault, yearOfMissing]
      cases own.year <;> rfl
    | plain own =>
      simp only [yearOfFault, yearOfMissing]
      cases given <;> rfl
  · rintro _ ⟨⟩
    exact absent

theorem RuleSlot.told_of_resolve {slot : RuleSlot} {feast : Option RuleSlot} {fault : Fault}
    (refused : slot.resolve given anchors feast = .error (.fault fault)) :
    fault.entry = none ∧ fault.rule = some slot ∧
      fault.year = anchors.yearOfFault given fault.cause ∧
      ∀ key, fault.cause = .unknownAnchor key → anchors.find? key = none := by
  obtain ⟨failure, met, told⟩ := Attempt.mapError_eq_error.mp refused
  cases failure with
  | fault own =>
    cases told
    obtain ⟨entry, rule, year, missing⟩ := slot.dateIn_failsOnly Failure.admitsRules_untold
      Anchors.getForRule_untold feast _ met own rfl
    refine ⟨?_, ?_, year, missing⟩
    · simp only [Fault.within, entry]
      rfl
    · simp only [Fault.within, rule]
      rfl
  | _ => cases told

theorem RuleSlot.year_of_resolve_fixed {month : Month} {day : MonthDay} {feast : Option RuleSlot}
    {fault : Fault}
    (refused : resolve (.rule (.fixed month day)) given anchors feast = .error (.fault fault)) :
    fault.year = Fault.yearGiven given := by
  obtain ⟨-, -, year, -⟩ := told_of_resolve refused
  obtain ⟨failure, met, told⟩ := Attempt.mapError_eq_error.mp refused
  rw [dateIn, Rule.dateIn, Rule.fixedDate] at met
  split at met
  next => cases met; cases told
  next =>
    split at met
    next => cases met
    next => cases met; cases told
    next =>
      cases met
      cases told
      exact year

end Rules

namespace Novena

variable {novena : Novena} {given : Json} {anchors : Anchors}

/-- The steps in which a window is found. -/
inductive Step where
  | duration
  | feast
  | start
  | earlierStart

def Lasts (novena : Novena) : Prop :=
  ∃ days, novena.effectiveDuration = .int days ∧ 1 ≤ days ∧ days ≤ maxDuration

/-- The step that fails, all before it having been taken. -/
def FailsIn (novena : Novena) (given : Json) (anchors : Anchors) : Step → Prop
  | .duration => ¬novena.Lasts
  | .feast => novena.Lasts ∧ ∃ failure, novena.feast.resolve given anchors none = .error failure
  | .start => novena.Lasts ∧ ∃ feast slot failure,
      novena.feast.resolve given anchors none = .ok feast ∧ novena.start = some slot ∧
      slot.resolve given anchors (some novena.feast) = .error failure
  | .earlierStart => novena.Lasts ∧ ∃ feast month day hinted year failure,
      novena.feast.resolve given anchors none = .ok feast ∧
      novena.start = some (.rule (.fixed month day)) ∧
      RuleSlot.resolve (.rule (.fixed month day)) given anchors (some novena.feast) = .ok hinted ∧
      feast < hinted ∧ given.whole? = some year ∧
      RuleSlot.resolve (.rule (.fixed month day)) (.int (year - 1)) anchors none = .error failure

def ruleIn (novena : Novena) : Step → Option RuleSlot
  | .duration => none
  | .feast => some novena.feast
  | .start => novena.start
  | .earlierStart => novena.start

def yearIn (given : Json) (anchors : Anchors) (cause : Cause) : Step → Option Json
  | .earlierStart => given.whole?.map fun year => .int (year - 1)
  | _ => anchors.yearOfFault given cause

theorem FailsIn.unique {step other : Step} (fails : novena.FailsIn given anchors step)
    (otherFails : novena.FailsIn given anchors other) : other = step := by
  cases step <;> cases other <;> simp only [FailsIn] at fails otherFails <;> grind

theorem checkedDuration_fault {fault : Fault}
    (refused : novena.checkedDuration given = .error (.fault fault)) :
    ¬novena.Lasts ∧ fault = {
      cause := .invalid (.duration novena.effectiveDuration)
      entry := some novena.id.val
      year := Fault.yearGiven given } := by
  constructor
  · rintro ⟨days, lasts⟩
    cases (checkedDuration_eq_ok.mpr lasts).symm.trans refused
  · unfold checkedDuration at refused
    simp only at refused
    split at refused
    · split at refused
      · cases refused
      · exact Failure.eq_of_raised (Except.error.inj refused)
    · exact Failure.eq_of_raised (Except.error.inj refused)

theorem dates_fault {duration : Int} {fault : Fault} (lasts : novena.Lasts)
    (refused : novena.dates given anchors duration = .error (.fault fault)) :
    fault.entry = none ∧
      (∀ key, fault.cause = .unknownAnchor key → anchors.find? key = none) ∧
      ∃ step, novena.FailsIn given anchors step ∧ (novena.ruleIn step).isSome ∧
        fault.rule = novena.ruleIn step ∧ fault.year = yearIn given anchors fault.cause step := by
  rcases Attempt.bind_eq_error.mp refused with unfeasted | ⟨feast, feasted, refused⟩
  · obtain ⟨entry, rule, year, missing⟩ := RuleSlot.told_of_resolve unfeasted
    exact ⟨entry, missing, .feast, ⟨lasts, _, unfeasted⟩, rfl, rule, year⟩
  rcases Attempt.bind_eq_error.mp refused with astray | ⟨start, -, refused⟩
  · cases (inRange_eq_error.mp astray).2
  cases given? : novena.start with
  | none =>
    rw [given?] at refused
    cases refused
  | some slot =>
    simp only [given?] at refused
    rcases Attempt.bind_eq_error.mp refused with unhinted | ⟨_, -, done⟩
    · rcases Attempt.bind_eq_error.mp unhinted with unstarted | ⟨hinted, started, again⟩
      · obtain ⟨entry, rule, year, missing⟩ := RuleSlot.told_of_resolve unstarted
        exact ⟨entry, missing, .start, ⟨lasts, feast, slot, _, feasted, given?, unstarted⟩,
          Option.isSome_iff_exists.mpr ⟨slot, given?⟩, rule.trans given?.symm, year⟩
      · split at again
        next month day =>
          split at again
          next after =>
            obtain ⟨year, whole, -⟩ := RuleSlot.resolve_fixed_eq_ok.mp started
            rw [whole, Option.getD_some] at again
            obtain ⟨entry, rule, -, missing⟩ := RuleSlot.told_of_resolve again
            have told := RuleSlot.year_of_resolve_fixed again
            refine ⟨entry, missing, .earlierStart,
              ⟨lasts, feast, month, day, hinted, year, _, feasted, given?, started, after, whole,
                again⟩,
              Option.isSome_iff_exists.mpr ⟨_, given?⟩, rule.trans given?.symm, ?_⟩
            rw [told, yearIn, whole]
            rfl
          next => cases again
        next => cases again
    · cases done

/-- Every fault of a novena names the novena, and the rule that was asked in the step that failed:
none if that was the duration, else the feast rule or the start rule. It tells the year asked for,
but the table's own if the table lacks an anchor, and the year before if a fixed start failed there.
And whatever callers tell of the circumstances of a fault, one after another, the first that tells
of each is heard, and the message itself stays. -/
theorem fault_attributed (novena : Novena) (given : Json) (anchors : Anchors) :
    (∀ fault, novena.resolve given anchors = .error (.fault fault) →
      fault.entry = some novena.id.val ∧ (fault.rule = none ↔ ¬novena.Lasts) ∧
      (∀ key, fault.cause = .unknownAnchor key → anchors.find? key = none) ∧
      ∃ step, novena.FailsIn given anchors step ∧
        (∀ other, novena.FailsIn given anchors other → other = step) ∧
        fault.rule = novena.ruleIn step ∧ fault.year = yearIn given anchors fault.cause step) ∧
    ∀ (fault : Fault) (calls : List Circumstances),
      (fault.withinAll calls).entry = Fault.firstTold (fault.entry :: calls.map (·.entry)) ∧
      (fault.withinAll calls).year =
        Fault.firstTold (fault.year :: calls.map fun call => Fault.yearGiven call.year) ∧
      (fault.withinAll calls).rule = Fault.firstTold (fault.rule :: calls.map (·.rule)) ∧
      (fault.withinAll calls).bareMessage = fault.bareMessage := by
  constructor
  · intro fault refused
    rw [resolve_unchecked] at refused
    rcases Attempt.bind_eq_error.mp refused with unlasting | ⟨duration, checked, refused⟩
    · obtain ⟨short, rfl⟩ := checkedDuration_fault unlasting
      exact ⟨rfl, iff_of_true rfl short, nofun, .duration, short,
        fun _ fails => @FailsIn.unique novena given anchors .duration _ short fails, rfl, rfl⟩
    · have lasts : novena.Lasts := ⟨duration, checkedDuration_eq_ok.mp checked⟩
      rcases Attempt.bind_eq_error.mp refused with undated | ⟨_, -, done⟩
      · obtain ⟨failure, met, told⟩ := Attempt.mapError_eq_error.mp undated
        cases failure with
        | fault own =>
          cases told
          obtain ⟨entry, missing, step, fails, isRule, rule, year⟩ := dates_fault lasts met
          refine ⟨?_, ?_, missing, step, fails, fun _ => fails.unique, ?_, ?_⟩
          · simp only [Fault.within, entry]
            rfl
          · have named : own.rule ≠ none := by
              rw [rule]
              exact Option.isSome_iff_ne_none.mp isRule
            simp [Fault.within, named, lasts]
          · simp [Fault.within, rule]
          · simp [Fault.within, year]
        | _ => cases told
      · cases done
  · intro fault calls
    obtain ⟨entry, year, rule, cause⟩ := fault.withinAll_first calls
    exact ⟨entry, year, rule, congrArg Cause.message cause⟩

def leapDay : Novena where
  id := .named "leap_day"
  title := .str "Leap day"
  feast := .rule (.fixed (.of 1) (.of 10))
  start := some (.rule (.fixed (.of 2) (.of 29)))
  duration := .int 9

/-- In 2024 the start is in its day that year, and fails in 2023. -/
theorem fault_attributed_leapDay :
    leapDay.Lasts ∧ ∃ fault, leapDay.resolve (.int 2024) (.plain []) = .error (.fault fault) ∧
      fault.entry = some leapDay.id.val ∧ fault.rule = leapDay.start ∧
      fault.year = some (.int 2023) := by
  obtain ⟨fault, refused⟩ : ∃ fault,
      leapDay.resolve (.int 2024) (.plain []) = .error (.fault fault) := ⟨_, rfl⟩
  have lasts : leapDay.Lasts := ⟨9, rfl, by decide⟩
  have again : leapDay.FailsIn (.int 2024) (.plain []) .earlierStart :=
    ⟨lasts, _, .of 2, .of 29, _, 2024, _, rfl, rfl, rfl, by decide, rfl, rfl⟩
  obtain ⟨entry, -, -, step, -, only, rule, year⟩ :=
    (fault_attributed leapDay (.int 2024) (.plain [])).1 fault refused
  cases only .earlierStart again
  exact ⟨lasts, fault, refused, entry, rule, year⟩

end Novena

end FeastCalendar
