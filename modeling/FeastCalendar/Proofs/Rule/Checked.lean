import FeastCalendar.Attempt
import FeastCalendar.Proofs.Json.Writable
import FeastCalendar.Proofs.Rule.Message
import FeastCalendar.Rule.Checked

/-!
What the checks of loose values accept: the value that stands for the result and no other. Whatever
they refuse is an invalid parameter, of which they tell on one line, if what they quote of it can be
written.
-/

namespace FeastCalendar
open Attempt (FailsOnly)
open Text (OneLine)

def Failure.IsInvalid (failure : Failure) : Prop :=
  ∃ fault, failure = .fault fault ∧ fault.kind = .invalidParameter

theorem Failure.isInvalid_invalid (cause : Invalid) : (Failure.invalid cause).IsInvalid :=
  ⟨_, rfl, rfl⟩

theorem Failure.raised_cases {allowed : Failure → Prop} {cause : Invalid} {entry : Option Text}
    {year : Option Json} (told : allowed (.fault { cause := .invalid cause, entry, year }))
    (untold : ¬(∀ value ∈ cause.quoted, value.isWritable = true) → allowed .unwritable) :
    allowed (raised cause entry year) := by
  unfold raised
  split
  next => exact told
  next long => exact untold fun written => long (List.all_eq_true.mpr written)

theorem Failure.eq_of_raised {cause : Invalid} {entry : Option Text} {year : Option Json}
    {fault : Fault} (told : raised cause entry year = .fault fault) :
    fault = { cause := .invalid cause, entry, year } := by
  unfold raised at told
  split at told
  next => exact (Failure.fault.inj told).symm
  next => cases told

/-- Admits whatever a check can refuse a value by; `held` says that the value can be written. -/
structure Failure.AdmitsChecks (allowed : Failure → Prop) (held : Prop) : Prop where
  refused : ∀ cause : Invalid, OneLine cause.message → allowed (.invalid cause)
  unwritable : ¬held → allowed .unwritable

theorem Failure.admitsChecks_isInvalid : AdmitsChecks IsInvalid True :=
  ⟨fun cause _ => isInvalid_invalid cause, fun never => absurd trivial never⟩

/-- Says of a parameter that it is invalid, or quotes a value that cannot be written. -/
def Failure.TellsOf (value : Json) (failure : Failure) : Prop :=
  failure.IsInvalid ∨ value.isWritable = false ∧ failure = .unwritable

theorem Failure.admitsChecks_tellsOf (value : Json) :
    AdmitsChecks (TellsOf value) (value.isWritable = true) :=
  ⟨fun cause _ => Or.inl (isInvalid_invalid cause),
    fun long => Or.inr ⟨Bool.eq_false_iff.mpr long, rfl⟩⟩

theorem Failure.IsInvalid.within {failure : Failure} (own : failure.IsInvalid)
    (entry : Option Text) (year : Option Json) (rule : Option RuleSlot) :
    (failure.within entry year rule).IsInvalid := by
  obtain ⟨fault, rfl, kind⟩ := own
  exact ⟨_, rfl, kind⟩

theorem Failure.TellsOf.within {value : Json} {failure : Failure} (own : failure.TellsOf value)
    (entry : Option Text) (year : Option Json) (rule : Option RuleSlot) :
    (failure.within entry year rule).TellsOf value := by
  rcases own with invalid | ⟨long, rfl⟩
  · exact Or.inl (invalid.within entry year rule)
  · exact Or.inr ⟨long, rfl⟩

theorem Failure.not_isInvalid_wrongType (cause : WrongType) : ¬(Failure.wrongType cause).IsInvalid :=
  fun ⟨_, same, _⟩ => nomatch same

theorem find?_named {α : Type} {all : List α} {name : α → String}
    (own : ∀ value, all.find? (fun other => (name other : Text) = name value) = some value)
    {text : Text} {value : α} :
    all.find? (fun other => (name other : Text) = text) = some value ↔ text = name value := by
  constructor
  · intro found
    simpa [eq_comm] using List.find?_some found
  · rintro rfl
    exact own value

theorem Civil.SnapPolicy.ofName?_eq_some {name : Text} {policy : SnapPolicy} :
    ofName? name = some policy ↔ name = policy.name :=
  find?_named fun policy => by cases policy <;> rfl

theorem Civil.SnapPolicy.eq_of_name {policy other : SnapPolicy}
    (same : Text.ofString policy.name = Text.ofString other.name) : policy = other := by
  apply Option.some.inj
  rw [← ofName?_eq_some.mpr rfl, same, ofName?_eq_some.mpr rfl]

namespace Checked

variable {α : Type} {field : String} {low high : Int} {value : Json}
variable {allowed : Failure → Prop} {held : Prop} (admits : Failure.AdmitsChecks allowed held)

include admits in
theorem refuse_failsOnly {cause : Invalid} (plain : ∀ text ∈ cause.rawTexts, OneLine text)
    (written : held → ∀ value ∈ cause.quoted, value.isWritable = true) :
    FailsOnly allowed (refuse cause : Except Failure α) := by
  apply Attempt.failsOnly_error
  apply Failure.raised_cases
  · exact admits.refused cause (cause.oneLine_message_iff.mpr plain)
  · exact fun long => admits.unwritable fun holds => long (written holds)

include admits in
theorem written_failsOnly (written : held → value.isWritable = true) :
    FailsOnly allowed value.written := by
  intro failure refused
  obtain ⟨long, rfl⟩ := Json.written_eq_error.mp refused
  exact admits.unwritable fun holds => Bool.false_ne_true (long.symm.trans (written holds))

include admits in
theorem refuse_field_failsOnly {cause : Invalid} (named : OneLine field)
    (only : cause.rawTexts = [field]) (quotes : cause.quoted = [value])
    (written : held → value.isWritable = true) :
    FailsOnly allowed (refuse cause : Except Failure α) :=
  refuse_failsOnly admits (only ▸ List.forall_mem_singleton.mpr named)
    fun holds => quotes ▸ List.forall_mem_singleton.mpr (written holds)

theorem integer_eq_ok {n : Int} : integer field value = .ok n ↔ value = .int n := by
  cases value <;> simp [integer, refuse]

include admits in
theorem integer_failsOnly (named : OneLine field) (written : held → value.isWritable = true) :
    FailsOnly allowed (integer field value) := by
  cases value with
  | int n => exact Attempt.failsOnly_ok n
  | _ => exact refuse_field_failsOnly admits named rfl rfl written

theorem ranged_eq_ok {range : Int → Prop} [DecidablePred range] {cause : Int → Invalid}
    {n : { n : Int // range n }} :
    (integer field value >>= fun n =>
      if within : range n then return ⟨n, within⟩ else refuse (cause n)) = .ok n ↔
        value = .int n.val := by
  simp only [Attempt.bind_eq_ok, integer_eq_ok]
  constructor
  · rintro ⟨m, rfl, found⟩
    split at found
    next =>
      cases found
      rfl
    next => cases found
  · rintro rfl
    exact ⟨n.val, rfl, dif_pos n.property⟩

include admits in
theorem ranged_failsOnly {range : Int → Prop} [DecidablePred range] {cause : Int → Invalid}
    (named : OneLine field) (only : ∀ n, (cause n).rawTexts = [field])
    (quotes : ∀ n, (cause n).quoted = [.int n]) (written : held → value.isWritable = true) :
    FailsOnly allowed ((integer field value >>= fun n =>
      if within : range n then return ⟨n, within⟩ else refuse (cause n)) :
        Except Failure { n : Int // range n }) := by
  apply (integer_failsOnly admits named written).bind
  intro n found
  split
  · exact Attempt.failsOnly_ok _
  · rw [integer_eq_ok.mp found] at written
    exact refuse_field_failsOnly admits named (only n) (quotes n) written

theorem between_eq_ok {n : Between low high} :
    between field low high value = .ok n ↔ value = .int n.val := ranged_eq_ok

include admits in
theorem between_failsOnly (named : OneLine field) (low high : Int)
    (written : held → value.isWritable = true) :
    FailsOnly allowed (between field low high value) :=
  ranged_failsOnly admits named (fun _ => rfl) (fun _ => rfl) written

theorem count_eq_ok {n : Count} : count field value = .ok n ↔ value = .int n.val := ranged_eq_ok

include admits in
theorem count_failsOnly (named : OneLine field) (written : held → value.isWritable = true) :
    FailsOnly allowed (count field value) :=
  ranged_failsOnly admits named (fun _ => rfl) (fun _ => rfl) written

theorem key_eq_ok {key : Key} : Checked.key field value = .ok key ↔ value = .str key.val := by
  cases value with
  | str text =>
    simp only [Checked.key, Json.str.injEq]
    constructor
    · intro found
      split at found
      next =>
        cases found
        rfl
      next => cases found
    · rintro rfl
      exact dif_pos key.property
  | _ => simp [Checked.key, refuse]

include admits in
theorem key_failsOnly (named : OneLine field) (written : held → value.isWritable = true) :
    FailsOnly allowed (Checked.key field value) := by
  cases value with
  | str text =>
    simp only [Checked.key]
    split
    · exact Attempt.failsOnly_ok _
    · exact refuse_field_failsOnly admits named rfl rfl written
  | _ => exact refuse_field_failsOnly admits named rfl rfl written

theorem optional_eq_ok {check : Json → Except Failure α} {spell : α → Json}
    (accepts : ∀ {value found}, check value = .ok found ↔ value = spell found)
    (filled : ∀ found, spell found ≠ .null) {found : Option α} :
    optional check value = .ok found ↔ value = (found.map spell).getD .null := by
  cases value with
  | null =>
    cases found with
    | none => simp [optional]
    | some own => simpa [optional] using (filled own).symm
  | _ =>
    simp only [optional, Attempt.bind_eq_ok, accepts, Attempt.pure_eq_ok]
    cases found with
    | none => simp
    | some own => simp

theorem optional_between_eq_ok {found : Option (Between low high)} :
    optional (between field low high) value = .ok found ↔
      value = (found.map fun n => .int n.val).getD .null :=
  optional_eq_ok between_eq_ok nofun

theorem optional_key_eq_ok {found : Option Key} :
    optional (Checked.key field) value = .ok found ↔
      value = (found.map fun key => .str key.val).getD .null :=
  optional_eq_ok key_eq_ok nofun

theorem optional_failsOnly {check : Json → Except Failure α}
    (refuses : FailsOnly allowed (check value)) : FailsOnly allowed (optional check value) := by
  cases value with
  | null => exact Attempt.failsOnly_ok _
  | _ => exact refuses.bind fun _ _ => Attempt.failsOnly_ok _

theorem policy_eq_ok {policy : Civil.SnapPolicy} :
    Checked.policy value = .ok policy ↔ value = .str policy.name := by
  cases value with
  | str text =>
    simp only [Checked.policy, Json.str.injEq, ← Civil.SnapPolicy.ofName?_eq_some]
    cases Civil.SnapPolicy.ofName? text <;> simp [refuse]
  | _ => simp [Checked.policy, refuse]

include admits in
theorem refuse_value_failsOnly {cause : Invalid} (none : cause.rawTexts = [])
    (quotes : cause.quoted = [value]) (written : held → value.isWritable = true) :
    FailsOnly allowed (refuse cause : Except Failure α) :=
  refuse_failsOnly admits (none ▸ List.forall_mem_nil _)
    fun holds => quotes ▸ List.forall_mem_singleton.mpr (written holds)

include admits in
theorem policy_failsOnly (written : held → value.isWritable = true) :
    FailsOnly allowed (Checked.policy value) := by
  cases value with
  | str text =>
    simp only [Checked.policy]
    split
    · exact Attempt.failsOnly_ok _
    · exact refuse_value_failsOnly admits rfl rfl written
  | _ => exact refuse_value_failsOnly admits rfl rfl written

end Checked

namespace Rule

variable {key offset weekday policy month day count days : Json} {rule : Rule}
variable {allowed : Failure → Prop} {held : Prop} (admits : Failure.AdmitsChecks allowed held)

theorem fixed?_eq_ok : fixed? month day = .ok rule ↔
    ∃ m, month = .int m.val ∧ ∃ d, day = .int d.val ∧ fixed m d = rule := by
  simp only [fixed?, Attempt.bind_eq_ok, Checked.between_eq_ok, Attempt.pure_eq_ok]

include admits in
theorem fixed?_failsOnly (months : held → month.isWritable = true)
    (days : held → day.isWritable = true) : FailsOnly allowed (fixed? month day) := by
  apply (Checked.between_failsOnly admits (by decide) _ _ months).bind
  intro m _
  apply (Checked.between_failsOnly admits (by decide) _ _ days).bind
  exact fun d _ => Attempt.failsOnly_ok _

theorem anchor?_eq_ok : anchor? key = .ok rule ↔ ∃ k, key = .str k.val ∧ anchor k = rule := by
  simp only [anchor?, Attempt.bind_eq_ok, Checked.key_eq_ok, Attempt.pure_eq_ok]

include admits in
theorem anchor?_failsOnly (keys : held → key.isWritable = true) :
    FailsOnly allowed (anchor? key) := by
  apply (Checked.key_failsOnly admits (by decide) keys).bind
  exact fun k _ => Attempt.failsOnly_ok _

theorem relative?_eq_ok : relative? key offset weekday policy = .ok rule ↔
    ∃ k, key = .str k.val ∧ ∃ n, offset = .int n ∧
      ∃ w : Option Weekday, weekday = (w.map fun n => .int n.val).getD .null ∧
        ∃ p, policy = .str p.name ∧ relative k n w p = rule := by
  simp only [relative?, Attempt.bind_eq_ok, Checked.key_eq_ok, Checked.integer_eq_ok,
    Checked.optional_between_eq_ok, Checked.policy_eq_ok, Attempt.pure_eq_ok]

include admits in
theorem relative?_failsOnly (keys : held → key.isWritable = true)
    (offsets : held → offset.isWritable = true) (weekdays : held → weekday.isWritable = true)
    (policies : held → policy.isWritable = true) :
    FailsOnly allowed (relative? key offset weekday policy) := by
  apply (Checked.key_failsOnly admits (by decide) keys).bind
  intro k _
  apply (Checked.integer_failsOnly admits (by decide) offsets).bind
  intro n _
  apply (Checked.optional_failsOnly
    (Checked.between_failsOnly admits (by decide) _ _ weekdays)).bind
  intro w _
  apply (Checked.policy_failsOnly admits policies).bind
  exact fun p _ => Attempt.failsOnly_ok _

theorem nthWeekdayAfter?_eq_ok : nthWeekdayAfter? key weekday count = .ok rule ↔
    ∃ k, key = .str k.val ∧ ∃ w, weekday = .int w.val ∧
      ∃ n, count = .int n.val ∧ nthWeekdayAfter k w n = rule := by
  simp only [nthWeekdayAfter?, Attempt.bind_eq_ok, Checked.key_eq_ok, Checked.between_eq_ok,
    Checked.count_eq_ok, Attempt.pure_eq_ok]

include admits in
theorem nthWeekdayAfter?_failsOnly (keys : held → key.isWritable = true)
    (weekdays : held → weekday.isWritable = true) (counts : held → count.isWritable = true) :
    FailsOnly allowed (nthWeekdayAfter? key weekday count) := by
  apply (Checked.key_failsOnly admits (by decide) keys).bind
  intro k _
  apply (Checked.between_failsOnly admits (by decide) _ _ weekdays).bind
  intro w _
  apply (Checked.count_failsOnly admits (by decide) counts).bind
  exact fun n _ => Attempt.failsOnly_ok _

theorem beforeFeast?_eq_ok : beforeFeast? days key = .ok rule ↔
    ∃ n, days = .int n.val ∧
      ∃ k : Option Key, key = (k.map fun key => .str key.val).getD .null ∧
        beforeFeast n k = rule := by
  simp only [beforeFeast?, Attempt.bind_eq_ok, Checked.count_eq_ok, Checked.optional_key_eq_ok,
    Attempt.pure_eq_ok]

include admits in
theorem beforeFeast?_failsOnly (counts : held → days.isWritable = true)
    (keys : held → key.isWritable = true) : FailsOnly allowed (beforeFeast? days key) := by
  apply (Checked.count_failsOnly admits (by decide) counts).bind
  intro n _
  apply (Checked.optional_failsOnly (Checked.key_failsOnly admits (by decide) keys)).bind
  exact fun k _ => Attempt.failsOnly_ok _

end Rule

end FeastCalendar
