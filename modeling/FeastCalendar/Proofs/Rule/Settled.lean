import FeastCalendar.Proofs.Rule.Wire
import FeastCalendar.Rule.Phrase
import FeastCalendar.Rule.Resolve

/-!
Settled rules. Settling a rule moves no date, since a policy without a weekday is never asked; and a
rule that was read from a wording is settled from the start.
-/

namespace FeastCalendar

def Failure.withoutRule : Failure → Failure
  | fault known => fault { known with rule := none }
  | other => other

theorem Failure.withoutRule_within {failure other : Failure}
    (same : failure.withoutRule = other.withoutRule) (entry : Option Text) (year : Option Json)
    (rule otherRule : Option RuleSlot) :
    (failure.within entry year rule).withoutRule =
      (other.within entry year otherRule).withoutRule := by
  cases failure <;> cases other <;> simp_all [withoutRule, within, Fault.within]

/-- Attempts that give the same value or fail alike, but for the rule that a fault names. -/
def SameOutcome {α : Type} (attempt other : Except Failure α) : Prop :=
  attempt.mapError Failure.withoutRule = other.mapError Failure.withoutRule

namespace SameOutcome

variable {α β : Type} {attempt other : Except Failure α}

theorem refl (attempt : Except Failure α) : SameOutcome attempt attempt := rfl

theorem bind {next otherNext : α → Except Failure β} (start : SameOutcome attempt other)
    (later : ∀ value, SameOutcome (next value) (otherNext value)) :
    SameOutcome (attempt >>= next) (other >>= otherNext) :=
  Attempt.mapError_bind_congr start fun value _ => later value

theorem within (same : SameOutcome attempt other) (entry : Option Text) (year : Option Json)
    (rule otherRule : Option RuleSlot) :
    SameOutcome (attempt.mapError fun failure => failure.within entry year rule)
      (other.mapError fun failure => failure.within entry year otherRule) := by
  cases attempt with
  | ok value =>
    cases other with
    | ok found => exact same
    | error failure => cases same
  | error failure =>
    cases other with
    | ok found => cases same
    | error cause =>
      have alike := Failure.withoutRule_within (Except.error.inj same) entry year rule otherRule
      exact congrArg Except.error alike

end SameOutcome

namespace RuleSlot

def settled : RuleSlot → RuleSlot
  | rule placed => rule placed.settled
  | stray value => stray value

def IsWorded (slot : RuleSlot) : Prop :=
  ∃ placed, slot = .rule placed ∧ ∀ text, placed = .raw text → ∃ wording, text = .str wording

end RuleSlot

namespace Rule

variable {rule : Rule} {value : Json} {year : Json} {anchors : Anchors} {feast : Option RuleSlot}

theorem isWorded_of_spelledBy (spelled : SpelledBy value rule) : (RuleSlot.rule rule).IsWorded := by
  refine ⟨rule, rfl, ?_⟩
  rintro text rfl
  exact ⟨_, spelled.2.2⟩

theorem borrowedKey_settled (key : Option Key) (feast : Option RuleSlot) :
    borrowedKey key (feast.map RuleSlot.settled) = borrowedKey key feast := by
  cases key with
  | some key => rfl
  | none =>
    cases feast with
    | none => rfl
    | some slot =>
      cases slot with
      | stray value => rfl
      | rule placed =>
        cases placed with
        | relative key offset weekday policy => cases weekday <;> rfl
        | _ => rfl

theorem dateIn_settled (worded : (RuleSlot.rule rule).IsWorded) :
    rule.settled.dateIn year anchors (feast.map RuleSlot.settled) =
      rule.dateIn year anchors feast := by
  cases rule with
  | relative key offset weekday policy => cases weekday <;> rfl
  | beforeFeast days key =>
    simp only [settled, dateIn, borrowedKey_settled]
  | raw text =>
    obtain ⟨_, ⟨⟩, wording⟩ := worded
    obtain ⟨_, rfl⟩ := wording text rfl
    rfl
  | _ => rfl

theorem toJson_settled (worded : (RuleSlot.rule rule).IsWorded) :
    rule.settled.toJson = rule.toJson := by
  cases rule with
  | relative key offset weekday policy => cases weekday <;> rfl
  | raw text =>
    obtain ⟨_, ⟨⟩, wording⟩ := worded
    obtain ⟨_, rfl⟩ := wording text rfl
    rfl
  | _ => rfl

/-- A rule that names no policy but the first where it names no weekday. -/
def IsSettled (rule : Rule) : Prop :=
  ∀ key offset policy, rule = relative key offset none policy → policy = .onOrAfter

theorem settled_eq_self_iff (worded : (RuleSlot.rule rule).IsWorded) :
    rule.settled = rule ↔ rule.IsSettled := by
  unfold IsSettled
  cases rule with
  | relative key offset weekday policy =>
    cases weekday with
    | none => simp [settled, eq_comm]
    | some weekday => simp [settled]
  | raw text =>
    obtain ⟨_, ⟨⟩, wording⟩ := worded
    obtain ⟨_, rfl⟩ := wording text rfl
    simp [settled, Json.display, Wording.str]
  | _ => simp [settled]

def Settles (attempt : Except Failure Rule) : Prop := ∀ rule, attempt = .ok rule → rule.settled = rule

theorem settles_bind {α : Type} {first : Except Failure α} {next : α → Except Failure Rule}
    (later : ∀ value, Settles (next value)) : Settles (first >>= next) := by
  intro rule found
  obtain ⟨value, -, own⟩ := Attempt.bind_eq_ok.mp found
  exact later value rule own

theorem settles_fixed? (month day : Json) : Settles (fixed? month day) := by
  intro rule found
  obtain ⟨m, -, d, -, rfl⟩ := fixed?_eq_ok.mp found
  rfl

theorem settles_anchor? (key : Json) : Settles (anchor? key) := by
  intro rule found
  obtain ⟨k, -, rfl⟩ := anchor?_eq_ok.mp found
  rfl

theorem settles_nthWeekdayAfter? (key weekday count : Json) :
    Settles (nthWeekdayAfter? key weekday count) := by
  intro rule found
  obtain ⟨k, -, w, -, n, -, rfl⟩ := nthWeekdayAfter?_eq_ok.mp found
  rfl

theorem settles_beforeFeast? (days key : Json) : Settles (beforeFeast? days key) := by
  intro rule found
  obtain ⟨n, -, k, -, rfl⟩ := beforeFeast?_eq_ok.mp found
  rfl

end Rule

theorem RuleSlot.resolve_settled {slot : RuleSlot} (worded : slot.IsWorded) (year : Json)
    (anchors : Anchors) (feast : Option RuleSlot) :
    SameOutcome (slot.settled.resolve year anchors (feast.map settled))
      (slot.resolve year anchors feast) := by
  obtain ⟨rule, rfl, wording⟩ := worded
  have same : (RuleSlot.rule rule).settled.dateIn year anchors (feast.map settled) =
      (RuleSlot.rule rule).dateIn year anchors feast := Rule.dateIn_settled ⟨rule, rfl, wording⟩
  rw [resolve, same]
  exact (SameOutcome.refl _).within _ _ _ _

namespace Phrase
open Rule (Settles)

variable {words : List String} {attempt : Except Failure Rule}

theorem settles_relative (anchor : Json) (offset : Int) (snap : Option (Int × Civil.SnapPolicy)) :
    Settles (relative anchor offset snap) := by
  intro rule found
  cases snap with
  | none =>
    obtain ⟨k, -, n, -, w, weekday, p, policy, rfl⟩ := Rule.relative?_eq_ok.mp found
    cases Civil.SnapPolicy.eq_of_name (Json.str.inj policy)
    cases w with
    | none => rfl
    | some day => cases weekday
  | some pair =>
    obtain ⟨k, -, n, -, w, weekday, p, -, rfl⟩ := Rule.relative?_eq_ok.mp found
    cases w with
    | none => cases weekday
    | some day => rfl

theorem settles_of_beforeFeast? (fits : beforeFeast? words = some attempt) : Settles attempt := by
  unfold beforeFeast? at fits
  split at fits
  next =>
    simp only [Option.bind_eq_bind, Option.bind_eq_some_iff, Option.ite_none_right_eq_some,
      Option.some.injEq] at fits
    obtain ⟨count, -, -, rfl⟩ := fits
    exact Rule.settles_bind fun n => Rule.settles_beforeFeast? _ _
  next => cases fits

theorem settles_of_fixed? (fits : fixed? words = some attempt) : Settles attempt := by
  unfold fixed? at fits
  split at fits
  next =>
    simp only [Option.bind_eq_bind, Option.bind_eq_some_iff, Option.ite_none_right_eq_some,
      Option.some.injEq] at fits
    obtain ⟨month, -, day, -, -, rfl⟩ := fits
    exact Rule.settles_fixed? _ _
  next => cases fits

theorem settles_of_weekdayDaysBefore? (fits : weekdayDaysBefore? words = some attempt) :
    Settles attempt := by
  unfold weekdayDaysBefore? at fits
  split at fits
  next =>
    simp only [Option.bind_eq_bind, Option.bind_eq_some_iff, Option.ite_none_right_eq_some,
      Option.some.injEq] at fits
    obtain ⟨weekday, -, count, -, anchor, -, -, rfl⟩ := fits
    exact Rule.settles_bind fun n => settles_relative _ _ _
  next => cases fits

theorem settles_of_daysBefore? (fits : daysBefore? words = some attempt) : Settles attempt := by
  unfold daysBefore? at fits
  split at fits
  next =>
    simp only [Option.bind_eq_bind, Option.bind_eq_some_iff, Option.ite_none_right_eq_some,
      Option.some.injEq] at fits
    obtain ⟨count, -, anchor, -, -, rfl⟩ := fits
    exact Rule.settles_bind fun n => settles_relative _ _ _
  next => cases fits

theorem settles_of_daysAfter? (fits : daysAfter? words = some attempt) : Settles attempt := by
  unfold daysAfter? at fits
  split at fits
  next =>
    simp only [Option.bind_eq_bind, Option.bind_eq_some_iff, Option.ite_none_right_eq_some,
      Option.some.injEq] at fits
    obtain ⟨count, -, anchor, -, -, rfl⟩ := fits
    exact Rule.settles_bind fun n => settles_relative _ _ _
  next => cases fits

theorem settles_of_weekdayAfter? (fits : weekdayAfter? words = some attempt) :
    Settles attempt := by
  unfold weekdayAfter? at fits
  simp only at fits
  split at fits
  next =>
    simp only [Option.bind_eq_bind, Option.bind_eq_some_iff] at fits
    obtain ⟨weekday, -, anchor, -, fits⟩ := fits
    cases fits
    exact Rule.settles_nthWeekdayAfter? _ _ _
  next => cases fits

theorem settles_of_weekdayBefore? (fits : weekdayBefore? words = some attempt) :
    Settles attempt := by
  unfold weekdayBefore? at fits
  split at fits
  next =>
    simp only [Option.bind_eq_bind, Option.bind_eq_some_iff] at fits
    obtain ⟨weekday, -, anchor, -, fits⟩ := fits
    cases fits
    exact settles_relative _ _ _
  next => cases fits

theorem settles_parse (text : String) (known : List Text) : Settles (parse text known) := by
  unfold parse
  split
  next attempt fits =>
    obtain ⟨shape, member, fits⟩ := List.exists_of_findSome?_eq_some fits
    simp only [shapes, List.mem_cons, List.not_mem_nil, or_false] at member
    rcases member with rfl | rfl | rfl | rfl | rfl | rfl | rfl
    · exact settles_of_beforeFeast? fits
    · exact settles_of_fixed? fits
    · exact settles_of_weekdayDaysBefore? fits
    · exact settles_of_daysBefore? fits
    · exact settles_of_daysAfter? fits
    · exact settles_of_weekdayAfter? fits
    · exact settles_of_weekdayBefore? fits
  next =>
    simp only
    split
    · exact Rule.settles_anchor? _
    · intro rule found
      cases found
      rfl

theorem ofJson_toJson_of_parse {text : String} {known : List Text} {rule : Rule}
    (parsed : parse text known = .ok rule) : Rule.ofJson rule.toJson = .ok rule := by
  rw [Rule.ofJson_toJson, settles_parse text known rule parsed]

end Phrase

end FeastCalendar
