import FeastCalendar.Proofs.Rule.Wire

/-!
The grammar of rules as JSON objects. It says for each kind of rule what may stand in which member;
a value is read as a rule exactly if it keeps to that, and no other member is looked at.
-/

namespace FeastCalendar
open Civil (SnapPolicy)

/-- What may stand in a member of an object, and whether it may be missing. -/
abbrev Shape := Option Json → Prop

namespace Shape

variable {found : Option Json}

/-- An integer in a range. Truth values and floating-point numbers are none. -/
def integer (range : Int → Prop) : Shape := fun found => ∃ n, range n ∧ found = some (.int n)

def key : Shape := fun found => ∃ text, text ≠ [] ∧ found = some (.str text)

def orNull (shape : Shape) : Shape := fun found => found = none ∨ found = some .null ∨ shape found

def policy : Shape := fun found =>
  found = none ∨ found = some (.str "onOrAfter") ∨ found = some (.str "onOrBefore")

def writable : Shape := fun found => ∀ value, found = some value → value.isWritable = true

theorem integer_iff {range : Int → Prop} :
    integer range found ↔ ∃ n : { n : Int // range n }, found = some (.int n.val) := by
  simp [integer]

theorem key_iff : key found ↔ ∃ own : Key, found = some (.str own.val) := by
  simp [key]

/-- What is missing counts as null. -/
theorem orNull_iff {α : Type} {shape : Shape} {spell : α → Json}
    (shaped : shape found ↔ ∃ own, found = some (spell own)) :
    orNull shape found ↔ ∃ own : Option α, found.getD .null = (own.map spell).getD .null := by
  rw [orNull, shaped]
  constructor
  · rintro (rfl | rfl | ⟨own, rfl⟩)
    · exact ⟨none, rfl⟩
    · exact ⟨none, rfl⟩
    · exact ⟨some own, rfl⟩
  · rintro ⟨own, same⟩
    cases found with
    | none => exact .inl rfl
    | some value =>
      cases own with
      | none => exact .inr (.inl (congrArg some same))
      | some own => exact .inr (.inr ⟨own, congrArg some same⟩)

theorem orNull_integer_iff {range : Int → Prop} :
    orNull (integer range) found ↔
      ∃ own : Option { n : Int // range n },
        found.getD .null = (own.map fun n => .int n.val).getD .null :=
  orNull_iff integer_iff

theorem orNull_key_iff :
    orNull key found ↔
      ∃ own : Option Key, found.getD .null = (own.map fun key => .str key.val).getD .null :=
  orNull_iff key_iff

theorem writable_iff : writable found ↔ (found.getD (.str "")).isWritable = true := by
  cases found with
  | none => exact iff_of_true nofun rfl
  | some value => simp [writable]

theorem policy_iff :
    policy found ↔
      ∃ own : SnapPolicy, found.getD (.str "onOrAfter") = .str own.wireName := by
  constructor
  · rintro (rfl | rfl | rfl)
    · exact ⟨.onOrAfter, rfl⟩
    · exact ⟨.onOrAfter, rfl⟩
    · exact ⟨.onOrBefore, rfl⟩
  · rintro ⟨own, same⟩
    cases found with
    | none => exact .inl rfl
    | some value =>
      cases own with
      | onOrAfter => exact .inr (.inl (congrArg some same))
      | onOrBefore => exact .inr (.inr (congrArg some same))

end Shape

/-- A failure without the object whose member is missing. -/
def Failure.withoutObject : Failure → Failure
  | fault known => match known.cause with
    | .invalid (.missingField kind field _) =>
      fault { known with cause := .invalid (.missingField kind field .null) }
    | _ => fault known
  | other => other

def RuleKind.grammar : RuleKind → List (String × Shape)
  | fixed =>
    [("month", .integer fun n => 1 ≤ n ∧ n ≤ 12), ("day", .integer fun n => 1 ≤ n ∧ n ≤ 31)]
  | anchor => [("anchor", .key)]
  | relative =>
    [("anchor", .key), ("offsetDays", .integer fun _ => True),
      ("weekday", .orNull (.integer fun n => 0 ≤ n ∧ n ≤ 6)), ("weekdayPolicy", .policy)]
  | nthWeekdayAfter =>
    [("anchor", .key), ("weekday", .integer fun n => 0 ≤ n ∧ n ≤ 6), ("n", .integer fun n => 1 ≤ n)]
  | beforeFeast => [("daysBefore", .integer fun n => 1 ≤ n), ("anchor", .orNull .key)]
  | raw => [("text", .writable)]

namespace Rule

variable {object value : Json} {kind : RuleKind} {rule : Rule}

/-- An object of the type of a kind of rule, with the members of that kind. -/
def Conforms (object : Json) (kind : RuleKind) : Prop :=
  object.member? "type" = some (.str kind.name) ∧
    ∀ member ∈ kind.grammar, member.2 (object.member? member.1)

theorem conforms_of_spelledBy (spelled : SpelledBy object rule) : Conforms object rule.kind := by
  obtain ⟨typed, spelled⟩ := spelled
  refine ⟨typed, ?_⟩
  cases rule with
  | fixed month day =>
    simp only [kind, RuleKind.grammar, List.forall_mem_cons, Shape.integer_iff]
    exact ⟨⟨month, spelled.1⟩, ⟨day, spelled.2⟩, List.forall_mem_nil _⟩
  | anchor key =>
    simp only [kind, RuleKind.grammar, List.forall_mem_cons, Shape.key_iff]
    exact ⟨⟨key, spelled⟩, List.forall_mem_nil _⟩
  | relative key offset weekday policy =>
    obtain ⟨wire, anchored, moved, snapped⟩ := spelled
    simp only [kind, RuleKind.grammar, List.forall_mem_cons, Shape.key_iff, Shape.policy_iff,
      Shape.orNull_integer_iff]
    exact ⟨⟨key, anchored⟩, ⟨offset, trivial, moved⟩, ⟨weekday, snapped⟩, ⟨policy, wire⟩,
      List.forall_mem_nil _⟩
  | nthWeekdayAfter key weekday count =>
    obtain ⟨anchored, named, counted⟩ := spelled
    simp only [kind, RuleKind.grammar, List.forall_mem_cons, Shape.key_iff, Shape.integer_iff]
    exact ⟨⟨key, anchored⟩, ⟨weekday, named⟩, ⟨count, counted⟩, List.forall_mem_nil _⟩
  | beforeFeast days key =>
    simp only [kind, RuleKind.grammar, List.forall_mem_cons, Shape.integer_iff,
      Shape.orNull_key_iff]
    exact ⟨⟨days, spelled.1⟩, ⟨key, spelled.2⟩, List.forall_mem_nil _⟩
  | raw text =>
    simp only [kind, RuleKind.grammar, List.forall_mem_cons, Shape.writable_iff]
    exact ⟨spelled.1, List.forall_mem_nil _⟩

theorem Conforms.exists_spelledBy (conforms : Conforms object kind) :
    ∃ rule, SpelledBy object rule := by
  obtain ⟨typed, members⟩ := conforms
  cases kind with
  | fixed =>
    simp only [RuleKind.grammar, List.forall_mem_cons, Shape.integer_iff] at members
    obtain ⟨⟨month, inMonth⟩, ⟨day, onDay⟩, -⟩ := members
    exact ⟨.fixed month day, typed, inMonth, onDay⟩
  | anchor =>
    simp only [RuleKind.grammar, List.forall_mem_cons, Shape.key_iff] at members
    obtain ⟨⟨key, anchored⟩, -⟩ := members
    exact ⟨.anchor key, typed, anchored⟩
  | relative =>
    simp only [RuleKind.grammar, List.forall_mem_cons, Shape.key_iff, Shape.policy_iff,
      Shape.orNull_integer_iff] at members
    obtain ⟨⟨key, anchored⟩, ⟨offset, -, moved⟩, ⟨weekday, snapped⟩, ⟨policy, wire⟩, -⟩ := members
    exact ⟨.relative key offset weekday policy, typed, wire, anchored, moved, snapped⟩
  | nthWeekdayAfter =>
    simp only [RuleKind.grammar, List.forall_mem_cons, Shape.key_iff, Shape.integer_iff] at members
    obtain ⟨⟨key, anchored⟩, ⟨weekday, named⟩, ⟨count, counted⟩, -⟩ := members
    exact ⟨.nthWeekdayAfter key weekday count, typed, anchored, named, counted⟩
  | beforeFeast =>
    simp only [RuleKind.grammar, List.forall_mem_cons, Shape.integer_iff,
      Shape.orNull_key_iff] at members
    obtain ⟨⟨days, counted⟩, ⟨key, anchored⟩, -⟩ := members
    exact ⟨.beforeFeast days key, typed, counted, anchored⟩
  | raw =>
    simp only [RuleKind.grammar, List.forall_mem_cons, Shape.writable_iff] at members
    exact ⟨.raw (.str ((object.member? "text").getD (.str "")).display), typed, members.1, rfl⟩

/-- A name of a member by which an object is read as a rule. -/
def Reads (object : Json) (name : Text) : Prop :=
  name = "type" ∨ ∃ kind : RuleKind, object.member? "type" = some (.str kind.name) ∧
    ∃ member ∈ kind.grammar, name = member.1

theorem need_alike {other : Json} {field : String} (written : object.isWritable = true)
    (otherWritten : other.isWritable = true)
    (same : object.member? field = other.member? field) :
    (need object kind field).mapError Failure.withoutObject =
      (need other kind field).mapError Failure.withoutObject := by
  have told : ∀ {quoted : Json}, quoted.isWritable = true →
      (Checked.refuse (.missingField kind.name field quoted) : Except Failure Json) =
        .error (.invalid (.missingField kind.name field quoted)) := by
    intro quoted written
    simp only [Checked.refuse, Failure.raised, Invalid.quoted, List.all_cons, written]
    rfl
  unfold need
  rw [same, told written, told otherWritten]
  cases other.member? field with
  | none => rfl
  | some value => rfl

/-- Objects with the same members by which one of them is read are read alike, as far as members
that are needed are. -/
theorem ofMembers_alike {δ : Type} {change : Failure → δ} {other : Json}
    (need_alike : ∀ {kind : RuleKind} {field : String},
      object.member? field = other.member? field →
        (need object kind field).mapError change = (need other kind field).mapError change)
    (same : ∀ name, Reads object name → object.member? name = other.member? name) :
    (ofMembers object).mapError change = (ofMembers other).mapError change := by
  have sameType := same "type" (.inl rfl)
  unfold ofMembers
  refine Attempt.mapError_bind_congr (by simp only [sameType]) fun kind found => ?_
  have typed := Json.getD_null_eq_str.mp (wireKind_eq_ok.mp found)
  have members : ∀ member ∈ kind.grammar, object.member? member.1 = other.member? member.1 :=
    fun member own => same member.1 (.inr ⟨kind, typed, member, own, rfl⟩)
  cases kind with
  | fixed =>
    simp only [RuleKind.grammar, List.forall_mem_cons] at members
    obtain ⟨month, day, -⟩ := members
    exact Attempt.mapError_bind_congr (need_alike month) fun _ _ =>
      Attempt.mapError_bind_congr (need_alike day) fun _ _ => rfl
  | anchor =>
    simp only [RuleKind.grammar, List.forall_mem_cons] at members
    exact Attempt.mapError_bind_congr (need_alike members.1) fun _ _ => rfl
  | relative =>
    simp only [RuleKind.grammar, List.forall_mem_cons] at members
    obtain ⟨key, offset, weekday, policy, -⟩ := members
    simp only [weekday, policy]
    exact Attempt.mapError_bind_congr rfl fun _ _ =>
      Attempt.mapError_bind_congr (need_alike key) fun _ _ =>
        Attempt.mapError_bind_congr (need_alike offset) fun _ _ => rfl
  | nthWeekdayAfter =>
    simp only [RuleKind.grammar, List.forall_mem_cons] at members
    obtain ⟨key, weekday, count, -⟩ := members
    exact Attempt.mapError_bind_congr (need_alike key) fun _ _ =>
      Attempt.mapError_bind_congr (need_alike weekday) fun _ _ =>
        Attempt.mapError_bind_congr (need_alike count) fun _ _ => rfl
  | beforeFeast =>
    simp only [RuleKind.grammar, List.forall_mem_cons] at members
    obtain ⟨days, key, -⟩ := members
    simp only [key]
    exact Attempt.mapError_bind_congr (need_alike days) fun _ _ => rfl
  | raw =>
    simp only [RuleKind.grammar, List.forall_mem_cons] at members
    simp only [members.1]

theorem ofMembers_eq_ok_congr {other : Json}
    (same : ∀ name, Reads object name → object.member? name = other.member? name) :
    ofMembers object = .ok rule ↔ ofMembers other = .ok rule := by
  -- Whatever a failure is changed into, a rule stays the rule it is.
  have alike : (ofMembers object).mapError (fun _ => ()) =
      (ofMembers other).mapError fun _ => () := by
    refine ofMembers_alike (fun {kind field} same => ?_) same
    unfold need
    rw [same]
    cases other.member? field with
    | none => rfl
    | some value => rfl
  rw [← Attempt.mapError_eq_ok, alike, Attempt.mapError_eq_ok]

/-- A value is read as a rule exactly if it is an object that conforms to the grammar of a kind, and
then as the rule that it spells. Members that the grammar does not name do not change the rule, nor
the refusal, but for the object that the refusal quotes; an object that cannot be written is not
quoted. What is written for any rule is read. -/
theorem ofJson_grammar :
    (∀ value, (∃ rule, ofJson value = .ok rule) ↔
      (∃ members, value = .obj members) ∧ ∃ kind, Conforms value kind) ∧
    (∀ value rule, ofJson value = .ok rule ↔
      (∃ members, value = .obj members) ∧ SpelledBy value rule) ∧
    (∀ members others : Keyed Text Json,
      (∀ name, Reads (.obj members) name →
        Json.member? (.obj members) name = Json.member? (.obj others) name) →
      (∀ rule, ofJson (.obj members) = .ok rule ↔ ofJson (.obj others) = .ok rule) ∧
        ((Json.obj members).isWritable = true → (Json.obj others).isWritable = true →
          (ofJson (.obj members)).mapError Failure.withoutObject =
            (ofJson (.obj others)).mapError Failure.withoutObject)) ∧
    ∀ rule, ofJson (toJson rule) = .ok rule.settled := by
  refine ⟨fun value => ?_, fun value rule => ofJson_eq_ok, fun members others same =>
    ⟨fun rule => ofMembers_eq_ok_congr same, fun written otherWritten =>
      ofMembers_alike (need_alike written otherWritten) same⟩, ofJson_toJson⟩
  simp only [ofJson_eq_ok, exists_and_left]
  refine and_congr_right fun _ => ⟨?_, ?_⟩
  · rintro ⟨rule, spelled⟩
    exact ⟨rule.kind, conforms_of_spelledBy spelled⟩
  · rintro ⟨kind, conforms⟩
    exact conforms.exists_spelledBy

def epiphanyMembers : Keyed Text Json := [("type", .str "fixed"), ("month", .int 1), ("day", .int 6)]

theorem ofJson_grammar_epiphany :
    (ofJson (.obj epiphanyMembers)).mapError Failure.withoutObject =
        (ofJson (.obj (epiphanyMembers.put "n" (.bool true)))).mapError Failure.withoutObject ∧
      ofJson (.obj epiphanyMembers) = .ok (.fixed (.of 1) (.of 6)) ∧
      Conforms (.obj epiphanyMembers) .fixed ∧
      ¬∃ rule, ofJson (.obj (epiphanyMembers.put "month" (.bool true))) = .ok rule := by
  obtain ⟨-, spells, alike, -⟩ := ofJson_grammar
  have read : ofJson (.obj epiphanyMembers) = .ok (.fixed (.of 1) (.of 6)) := rfl
  have conforms : Conforms (.obj epiphanyMembers) .fixed :=
    conforms_of_spelledBy ((spells _ _).mp read).2
  refine ⟨(alike _ _ ?_).2 rfl rfl, read, conforms, ?_⟩
  · rintro _ (rfl | ⟨kind, typed, member, own, rfl⟩)
    · rfl
    · obtain rfl : kind = .fixed := by
        cases kind <;> first | rfl | exact absurd typed (by decide)
      rcases List.mem_pair.mp own with rfl | rfl
      · rfl
      · rfl
  · rintro ⟨rule, found⟩
    cases found

section Unwritable

variable {text : Json} (unwritable : text.isWritable = false)

include unwritable

theorem ofJson_raw_unwritable :
    ofJson (.obj [("type", .str "raw"), ("text", text)]) = .error .unwritable := by
  show (text.written >>= fun text => Except.ok (raw (.str text))) = _
  rw [Json.written_eq_error.mpr ⟨unwritable, rfl⟩]
  rfl

theorem ofJson_incomplete_unwritable :
    ofJson (.obj [("type", .str "anchor"), ("text", text)]) = .error .unwritable := by
  show (Checked.refuse (.missingField "anchor" "anchor" (.obj [("type", .str "anchor"),
    ("text", text)])) >>= fun key => anchor? key) = _
  have quoted : (Json.obj [("type", .str "anchor"), ("text", text)]).isWritable = false := by
    simp [Json.isWritable, Json.areMembersWritable, unwritable]
  simp only [Checked.refuse, Failure.raised, Invalid.quoted, List.all_cons, quoted]
  rfl

end Unwritable

def long : Json := .int (10 ^ Text.digitLimit : Nat)

theorem isWritable_long : long.isWritable = false :=
  Bool.eq_false_iff.mpr fun written => absurd (Text.isWritable_pow.mp written) (lt_irrefl _)

theorem not_any_text :
    ofJson (.obj [("type", .str "raw"), ("text", long)]) = .error .unwritable ∧
      ofJson (.obj [("type", .str "anchor")]) =
        .error (.invalid (.missingField "anchor" "anchor" (.obj [("type", .str "anchor")]))) ∧
      ofJson (.obj [("type", .str "anchor"), ("text", long)]) = .error .unwritable :=
  ⟨ofJson_raw_unwritable isWritable_long, rfl, ofJson_incomplete_unwritable isWritable_long⟩

end Rule

end FeastCalendar
