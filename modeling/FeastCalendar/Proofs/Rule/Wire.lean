import FeastCalendar.Proofs.Json.RoundTrip
import FeastCalendar.Proofs.Rule.Checked
import FeastCalendar.Rule.Wire

/-!
Rules as JSON objects. An object is read as a rule exactly if it spells the rule, and what is written
for a rule spells it, but for what the object does not hold: a policy without a weekday.
-/

namespace FeastCalendar
open Attempt (FailsOnly)

theorem Civil.SnapPolicy.ofWireName?_eq_some {name : Text} {policy : SnapPolicy} :
    ofWireName? name = some policy ↔ name = policy.wireName :=
  find?_named fun policy => by cases policy <;> rfl

theorem RuleKind.ofName?_eq_some {name : Text} {kind : RuleKind} :
    ofName? name = some kind ↔ name = kind.name :=
  find?_named fun kind => by cases kind <;> rfl

/-- An array or an object, which is no name. -/
def Json.IsCompound : Json → Prop
  | arr _ => True
  | obj _ => True
  | _ => False

theorem Json.getD_null_eq_str {found : Option Json} {text : Text} :
    found.getD .null = .str text ↔ found = some (.str text) := by
  cases found <;> simp

theorem Json.getD_null_eq_int {found : Option Json} {n : Int} :
    found.getD .null = .int n ↔ found = some (.int n) := by
  cases found <;> simp

namespace Rule

variable {object value : Json} {kind : RuleKind} {rule : Rule}
variable {allowed : Failure → Prop} {held : Prop} (admits : Failure.AdmitsChecks allowed held)

theorem wireKind_eq_ok : wireKind value = .ok kind ↔ value = .str kind.name := by
  cases value with
  | str name =>
    simp only [wireKind, Json.str.injEq, ← RuleKind.ofName?_eq_some]
    cases RuleKind.ofName? name <;> simp [Checked.refuse]
  | _ => simp [wireKind, Checked.refuse]

include admits in
theorem wireKind_failsOnly (written : held → value.isWritable = true) :
    FailsOnly allowed (wireKind value) := by
  cases value with
  | str name =>
    simp only [wireKind]
    split
    · exact Attempt.failsOnly_ok _
    · exact Checked.refuse_value_failsOnly admits rfl rfl written
  | _ => exact Checked.refuse_value_failsOnly admits rfl rfl written

theorem need_eq_ok {field : String} :
    need object kind field = .ok value ↔ object.member? field = some value := by
  unfold need
  cases object.member? field <;> simp [Checked.refuse]

include admits in
theorem need_failsOnly (written : held → object.isWritable = true) (kind : RuleKind)
    {field : String} (named : Text.OneLine field) :
    FailsOnly allowed (need object kind field) := by
  have kindNamed : Text.OneLine kind.name := by cases kind <;> decide
  unfold need
  split
  · exact Attempt.failsOnly_ok _
  · apply Checked.refuse_failsOnly admits
    · simp only [Invalid.rawTexts, List.forall_mem_cons]
      exact ⟨kindNamed, named, List.forall_mem_nil _⟩
    · exact fun holds => List.forall_mem_singleton.mpr (written holds)

include admits in
theorem need_bind_failsOnly {α : Type} {next : Json → Except Failure α}
    (written : held → object.isWritable = true) (kind : RuleKind) {field : String}
    (named : Text.OneLine field)
    (rest : ∀ value, (held → value.isWritable = true) → FailsOnly allowed (next value)) :
    FailsOnly allowed (need object kind field >>= next) := by
  apply (need_failsOnly admits written kind named).bind
  intro value found
  exact rest value fun holds => Json.isWritable_of_member? (written holds) (need_eq_ok.mp found)

theorem wirePolicy_eq_ok {named : Json} :
    wirePolicy value = .ok named ↔
      ∃ policy : Civil.SnapPolicy, value = .str policy.wireName ∧ named = .str policy.name := by
  cases value with
  | str name =>
    simp only [wirePolicy, Json.str.injEq, ← Civil.SnapPolicy.ofWireName?_eq_some]
    cases Civil.SnapPolicy.ofWireName? name <;> simp [Checked.refuse, eq_comm]
  | _ => simp [wirePolicy, Checked.refuse]

include admits in
theorem wirePolicy_graveUnless (written : held → value.isWritable = true) :
    Attempt.GraveUnless (.wrongType .other) allowed (¬value.IsCompound)
      (wirePolicy value) := by
  cases value with
  | arr items => exact ⟨fun simple => absurd trivial simple, fun _ => rfl⟩
  | obj members => exact ⟨fun simple => absurd trivial simple, fun _ => rfl⟩
  | str name =>
    refine ⟨fun _ => ?_, fun compound => absurd id compound⟩
    simp only [wirePolicy]
    split
    · exact Attempt.failsOnly_ok _
    · exact Checked.refuse_value_failsOnly admits rfl rfl written
  | _ =>
    exact ⟨fun _ => Checked.refuse_value_failsOnly admits rfl rfl written,
      fun compound => absurd id compound⟩

/-- An object that spells a rule: its type names the kind, and the members that the kind reads are
there for the data of the rule. Others do not matter. -/
def SpelledBy (object : Json) (rule : Rule) : Prop :=
  object.member? "type" = some (.str rule.kind.name) ∧
    match rule with
    | fixed month day =>
      object.member? "month" = some (.int month.val) ∧ object.member? "day" = some (.int day.val)
    | anchor key => object.member? "anchor" = some (.str key.val)
    | relative key offset weekday policy =>
      (object.member? "weekdayPolicy").getD (.str "onOrAfter") = .str policy.wireName ∧
        object.member? "anchor" = some (.str key.val) ∧
        object.member? "offsetDays" = some (.int offset) ∧
        (object.member? "weekday").getD .null = (weekday.map fun n => .int n.val).getD .null
    | nthWeekdayAfter key weekday count =>
      object.member? "anchor" = some (.str key.val) ∧
        object.member? "weekday" = some (.int weekday.val) ∧
        object.member? "n" = some (.int count.val)
    | beforeFeast days key =>
      object.member? "daysBefore" = some (.int days.val) ∧
        (object.member? "anchor").getD .null = (key.map fun key => .str key.val).getD .null
    | raw text =>
      let given := (object.member? "text").getD (.str "")
      given.isWritable = true ∧ text = .str given.display

theorem ofMembers_eq_ok : ofMembers object = .ok rule ↔ SpelledBy object rule := by
  simp only [ofMembers, Attempt.bind_eq_ok, wireKind_eq_ok, Json.getD_null_eq_str]
  constructor
  · rintro ⟨kind, typed, read⟩
    cases kind with
    | fixed =>
      simp only [Attempt.bind_eq_ok, need_eq_ok, fixed?_eq_ok] at read
      obtain ⟨_, month, _, day, m, rfl, d, rfl, rfl⟩ := read
      exact ⟨typed, month, day⟩
    | anchor =>
      simp only [Attempt.bind_eq_ok, need_eq_ok, anchor?_eq_ok] at read
      obtain ⟨_, key, k, rfl, rfl⟩ := read
      exact ⟨typed, key⟩
    | relative =>
      simp only [Attempt.bind_eq_ok, need_eq_ok, wirePolicy_eq_ok, relative?_eq_ok] at read
      obtain ⟨_, ⟨policy, wire, rfl⟩, _, key, _, offset, k, rfl, n, rfl, w, weekday, p, named, rfl⟩ :=
        read
      cases Civil.SnapPolicy.eq_of_name (Json.str.inj named)
      exact ⟨typed, wire, key, offset, weekday⟩
    | nthWeekdayAfter =>
      simp only [Attempt.bind_eq_ok, need_eq_ok, nthWeekdayAfter?_eq_ok] at read
      obtain ⟨_, key, _, weekday, _, count, k, rfl, w, rfl, n, rfl, rfl⟩ := read
      exact ⟨typed, key, weekday, count⟩
    | beforeFeast =>
      simp only [Attempt.bind_eq_ok, need_eq_ok, beforeFeast?_eq_ok] at read
      obtain ⟨_, days, n, rfl, k, key, rfl⟩ := read
      exact ⟨typed, days, key⟩
    | raw =>
      simp only [Attempt.bind_eq_ok, Json.written_eq_ok] at read
      obtain ⟨_, ⟨writable, rfl⟩, same⟩ := read
      cases same
      exact ⟨typed, writable, rfl⟩
  · rintro ⟨typed, spelled⟩
    refine ⟨rule.kind, typed, ?_⟩
    cases rule with
    | fixed month day =>
      simp only [kind, Attempt.bind_eq_ok, need_eq_ok, fixed?_eq_ok]
      exact ⟨_, spelled.1, _, spelled.2, month, rfl, day, rfl, rfl⟩
    | anchor key =>
      simp only [kind, Attempt.bind_eq_ok, need_eq_ok, anchor?_eq_ok]
      exact ⟨_, spelled, key, rfl, rfl⟩
    | relative key offset weekday policy =>
      obtain ⟨wire, anchored, moved, snapped⟩ := spelled
      simp only [kind, Attempt.bind_eq_ok, need_eq_ok, wirePolicy_eq_ok, relative?_eq_ok]
      exact ⟨_, ⟨policy, wire, rfl⟩, _, anchored, _, moved, key, rfl, offset, rfl, weekday, snapped,
        policy, rfl, rfl⟩
    | nthWeekdayAfter key weekday count =>
      obtain ⟨anchored, named, counted⟩ := spelled
      simp only [kind, Attempt.bind_eq_ok, need_eq_ok, nthWeekdayAfter?_eq_ok]
      exact ⟨_, anchored, _, named, _, counted, key, rfl, weekday, rfl, count, rfl, rfl⟩
    | beforeFeast days key =>
      simp only [kind, Attempt.bind_eq_ok, need_eq_ok, beforeFeast?_eq_ok]
      exact ⟨_, spelled.1, days, rfl, key, spelled.2, rfl⟩
    | raw text =>
      obtain ⟨writable, rfl⟩ := spelled
      simp only [kind, Attempt.bind_eq_ok, Json.written_eq_ok]
      exact ⟨_, ⟨writable, rfl⟩, rfl⟩

theorem ofJson_eq_ok :
    ofJson value = .ok rule ↔ (∃ members, value = .obj members) ∧ SpelledBy value rule := by
  cases value with
  | obj members => simp [ofJson, ofMembers_eq_ok]
  | _ => simp [ofJson, Checked.refuse]

/-- A relative rule whose policy is an array or an object, which cannot be looked up among names. -/
def Misfit (value : Json) : Prop :=
  value.member? "type" = some (.str "relative") ∧
    ∃ policy, value.member? "weekdayPolicy" = some policy ∧ policy.IsCompound

include admits in
theorem ofMembers_graveUnless (written : held → object.isWritable = true) :
    Attempt.GraveUnless (.wrongType .other) allowed (¬Misfit object)
      (ofMembers object) := by
  have optional : ∀ {spare : Json}, spare.isWritable = true → ∀ name : Text,
      held → ((object.member? name).getD spare).isWritable = true :=
    fun spared name holds => Json.isWritable_getD (written holds) spared name
  unfold ofMembers
  refine ((Attempt.GraveUnless.of_failsOnly (wireKind_failsOnly admits (optional rfl _))).bind
    (fun kind => kind = .relative →
      ¬((object.member? "weekdayPolicy").getD (.str "onOrAfter")).IsCompound) fun kind _ => ?_).congr ?_
  · cases kind with
    | fixed =>
      refine .of_holds ?_ (by simp)
      apply need_bind_failsOnly admits written _ (by decide)
      intro month months
      apply need_bind_failsOnly admits written _ (by decide)
      exact fun day days => fixed?_failsOnly admits months days
    | anchor =>
      refine .of_holds ?_ (by simp)
      apply need_bind_failsOnly admits written _ (by decide)
      exact fun key keys => anchor?_failsOnly admits keys
    | relative =>
      refine ((wirePolicy_graveUnless admits (optional rfl _)).bind (fun _ => True)
        fun policy found => Attempt.GraveUnless.of_failsOnly ?_).congr (by simp)
      obtain ⟨own, -, rfl⟩ := wirePolicy_eq_ok.mp found
      apply need_bind_failsOnly admits written _ (by decide)
      intro key keys
      apply need_bind_failsOnly admits written _ (by decide)
      exact fun offset offsets =>
        relative?_failsOnly admits keys offsets (optional rfl _) fun _ => rfl
    | nthWeekdayAfter =>
      refine .of_holds ?_ (by simp)
      apply need_bind_failsOnly admits written _ (by decide)
      intro key keys
      apply need_bind_failsOnly admits written _ (by decide)
      intro weekday weekdays
      apply need_bind_failsOnly admits written _ (by decide)
      exact fun count counts => nthWeekdayAfter?_failsOnly admits keys weekdays counts
    | beforeFeast =>
      refine .of_holds ?_ (by simp)
      apply need_bind_failsOnly admits written _ (by decide)
      exact fun days counts => beforeFeast?_failsOnly admits counts (optional rfl _)
    | raw =>
      refine .of_holds ?_ (by simp)
      apply Attempt.FailsOnly.bind
      · exact Checked.written_failsOnly admits (optional rfl _)
      · exact fun _ _ => Attempt.failsOnly_ok _
  · simp only [wireKind_eq_ok, Json.getD_null_eq_str, true_and, Misfit]
    cases found : object.member? "weekdayPolicy" with
    | none => simp [Json.IsCompound]
    | some policy =>
      constructor
      · rintro simple ⟨typed, _, ⟨⟩, compound⟩
        exact simple .relative typed rfl compound
      · rintro fits kind typed rfl compound
        exact fits ⟨typed, policy, rfl, compound⟩

include admits in
theorem ofJson_graveUnless (written : held → value.isWritable = true) :
    Attempt.GraveUnless (.wrongType .other) allowed (¬Misfit value) (ofJson value) := by
  cases value with
  | obj members => exact ofMembers_graveUnless admits written
  | _ =>
    exact .of_holds (Checked.refuse_failsOnly admits (List.forall_mem_nil _)
      fun _ => List.forall_mem_nil _) (by simp [Misfit, Json.member?])

/-- A rule as an object can hold it: without a weekday there is no policy but the first, and a
wording is a text. -/
def settled : Rule → Rule
  | relative key offset none _ => relative key offset none .onOrAfter
  | raw text => raw (.str text.val.display)
  | rule => rule

theorem settled_spelledBy (rule : Rule) : SpelledBy rule.toJson rule.settled := by
  cases rule with
  | fixed month day => exact ⟨rfl, rfl, rfl⟩
  | anchor key => exact ⟨rfl, rfl⟩
  | relative key offset weekday policy =>
    cases weekday with
    | none => exact ⟨rfl, rfl, rfl, rfl, rfl⟩
    | some weekday => exact ⟨rfl, rfl, rfl, rfl, rfl⟩
  | nthWeekdayAfter key weekday count => exact ⟨rfl, rfl, rfl, rfl⟩
  | beforeFeast days key =>
    cases key with
    | none => exact ⟨rfl, rfl, rfl⟩
    | some key => exact ⟨rfl, rfl, rfl⟩
  | raw text => exact ⟨rfl, text.property, rfl⟩

theorem ofJson_toJson (rule : Rule) : ofJson rule.toJson = .ok rule.settled :=
  ofJson_eq_ok.mpr ⟨⟨_, rfl⟩, rule.settled_spelledBy⟩

theorem spellable_toJson {room : Nat} (spelled : SpelledBy object rule)
    (spellable : object.Spellable room) : rule.toJson.Spellable room := by
  obtain ⟨typed, spelled⟩ := spelled
  obtain ⟨inner, rfl, -⟩ := spellable.of_member? typed
  have own : ∀ {name : String} {value : Json}, object.member? name = some value →
      value.Spellable inner := by
    intro name value found
    obtain ⟨_, same, spellable⟩ := spellable.of_member? found
    cases same
    exact spellable
  have word : ∀ text : String, (Json.str text).Spellable inner :=
    fun text => .str _ (Text.isScalar_ofString text)
  cases rule with
  | fixed month day =>
    apply Json.spellable_record ["type", "month", "day"] rfl (by decide)
    simp only [members, List.forall_mem_cons]
    exact ⟨word _, own spelled.1, own spelled.2, nofun⟩
  | anchor key =>
    apply Json.spellable_record ["type", "anchor"] rfl (by decide)
    simp only [members, List.forall_mem_cons]
    exact ⟨word _, own spelled, nofun⟩
  | relative key offset weekday policy =>
    obtain ⟨-, anchored, moved, snapped⟩ := spelled
    cases weekday with
    | none =>
      apply Json.spellable_record ["type", "anchor", "offsetDays"] rfl (by decide)
      simp only [members, List.forall_mem_cons]
      exact ⟨word _, own anchored, own moved, nofun⟩
    | some weekday =>
      apply Json.spellable_record ["type", "anchor", "offsetDays", "weekday", "weekdayPolicy"] rfl
        (by decide)
      simp only [members, List.forall_mem_cons]
      exact ⟨word _, own anchored, own moved, own (Json.getD_null_eq_int.mp snapped), word _, nofun⟩
  | nthWeekdayAfter key weekday count =>
    obtain ⟨anchored, named, counted⟩ := spelled
    apply Json.spellable_record ["type", "anchor", "weekday", "n"] rfl (by decide)
    simp only [members, List.forall_mem_cons]
    exact ⟨word _, own anchored, own named, own counted, nofun⟩
  | beforeFeast days key =>
    obtain ⟨counted, anchored⟩ := spelled
    cases key with
    | none =>
      apply Json.spellable_record ["type", "daysBefore"] rfl (by decide)
      simp only [members, List.forall_mem_cons]
      exact ⟨word _, own counted, nofun⟩
    | some key =>
      apply Json.spellable_record ["type", "daysBefore", "anchor"] rfl (by decide)
      simp only [members, List.forall_mem_cons]
      exact ⟨word _, own counted, own (Json.getD_null_eq_str.mp anchored), nofun⟩
  | raw text =>
    apply Json.spellable_record ["type", "text"] rfl (by decide)
    simp only [members, List.forall_mem_cons]
    refine ⟨word _, ?_, nofun⟩
    rw [spelled.2]
    apply Json.Spellable.str
    cases found : object.member? "text" with
    | none => exact Text.isScalar_ofString ""
    | some given => exact (own found).isScalar_display

end Rule

end FeastCalendar
