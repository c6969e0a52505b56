import FeastCalendar.Proofs.Novena.Index
import FeastCalendar.Proofs.Rule.Wire

/-!
How indexes of novenas are refused. What is wrong with an entry is told as an invalid parameter,
except where a value of the wrong type is looked up among names or asked for its items; such an
entry ends the reading with a failure that names nothing. So may an integer that is too long to be
written, which no text has.
-/

namespace FeastCalendar
open Attempt (FailsOnly GraveUnless)

namespace Novena

variable {allowed : Failure → Prop} {held : Prop} (admits : Failure.AdmitsChecks allowed held)
variable {value entry : Json}

def Unlistable (value : Json) : Prop := value.isNothing = false ∧ value.items? = none

/-- An entry with a value of a type that is not told: once the title is written, a policy among the
rules, and once the rules are read, tags or patronage. -/
def Misfit (entry : Json) : Prop :=
  let get := fun name : Text => (entry.member? name).getD .null
  (∃ title, ((entry.member? "title").getD (get "id")).written = .ok title) ∧
    (Rule.Misfit (get "feastRule") ∨
      (∃ feast, Rule.ofJson (get "feastRule") = .ok feast) ∧
        (Rule.Misfit (get "startRule") ∨
          (∃ start, optionalRule (get "startRule") = .ok start) ∧
            (Unlistable (get "tags") ∨ Unlistable (get "patronage"))))

theorem listed_graveUnless (value : Json) :
    GraveUnless (.wrongType .other) allowed (¬Unlistable value) (listed value) := by
  unfold listed Unlistable
  split
  next nothing => exact .of_holds (Attempt.failsOnly_ok []) (by simp [nothing])
  next something =>
    split
    next items found => exact .of_holds (Attempt.failsOnly_ok items) (by simp [found])
    next absent =>
      exact ⟨fun listable => absurd ⟨by simpa using something, absent⟩ listable, fun _ => rfl⟩

include admits in
theorem optionalRule_graveUnless (written : held → value.isWritable = true) :
    GraveUnless (.wrongType .other) allowed (¬Rule.Misfit value) (optionalRule value) := by
  cases value with
  | null => exact .of_holds (Attempt.failsOnly_ok none) (by simp [Rule.Misfit, Json.member?])
  | _ =>
    refine ((Rule.ofJson_graveUnless admits written).bind (fun _ => True) fun _ _ =>
      GraveUnless.of_failsOnly (Attempt.failsOnly_ok _)).congr ?_
    simp

theorem exists_listed {value : Json} (listable : ¬Unlistable value) :
    ∃ items, listed value = .ok items := by
  cases found : listed value with
  | ok items => exact ⟨items, rfl⟩
  | error failure =>
    unfold listed at found
    split at found
    next => cases found
    next something =>
      split at found
      next => cases found
      next absent => exact absurd ⟨by simpa using something, absent⟩ listable

include admits in
theorem ofMembers_graveUnless {members : Keyed Text Json}
    (written : held → (Json.obj members).isWritable = true) :
    GraveUnless (.wrongType .other) allowed (¬Misfit (.obj members))
      (ofMembers members) := by
  have get : ∀ name : Text, held → ((Keyed.find? members name).getD .null).isWritable = true :=
    fun name holds => Json.isWritable_getD (written holds) rfl name
  have title : held → ((Keyed.find? members "title").getD
      ((Keyed.find? members "id").getD .null)).isWritable = true :=
    fun holds => Json.isWritable_getD (written holds) (get "id" holds) "title"
  unfold ofMembers
  refine ((GraveUnless.of_failsOnly (Checked.written_failsOnly admits title)).bind _ fun title _ =>
    (Rule.ofJson_graveUnless admits (get _)).bind _ fun feast _ =>
      (optionalRule_graveUnless admits (get _)).bind _ fun start _ =>
        (listed_graveUnless _).bind _ fun tags _ =>
          (listed_graveUnless _).bind (fun _ => True) fun patronage _ =>
            GraveUnless.of_failsOnly ?_).congr ?_
  · exact (Checked.key_failsOnly admits (by decide) (get _)).bind fun _ _ => Attempt.failsOnly_ok _
  · -- Once tags can be listed they are, so that patronage is looked at in any case.
    have both : ∀ tags patronage : Json,
        (¬Unlistable tags ∧ ∀ items, listed tags = .ok items → ¬Unlistable patronage) ↔
          ¬Unlistable tags ∧ ¬Unlistable patronage := by
      intro tags patronage
      refine and_congr_right fun listable => ?_
      obtain ⟨items, found⟩ := exists_listed listable
      exact ⟨fun later => later items found, fun later _ _ => later⟩
    simp only [implies_true, and_true, true_and, both, Misfit, not_or, not_and,
      forall_exists_index]
    rfl

include admits in
theorem ofJson_graveUnless
    (within : ∀ failure, allowed failure → ∀ entry, allowed (failure.within entry none none))
    (written : held → entry.isWritable = true) :
    GraveUnless (.wrongType .other) allowed (¬Misfit entry) (ofJson entry) := by
  cases entry with
  | obj members =>
    exact (ofMembers_graveUnless admits written).mapError (fun _ own => within _ own _) rfl
  | _ =>
    refine .of_holds (Checked.refuse_failsOnly admits (List.forall_mem_nil _)
      fun _ => List.forall_mem_nil _) ?_
    simp [Misfit, Rule.Misfit, Json.member?, Rule.ofJson, Checked.refuse]

end Novena

namespace NovenaIndex

def Misfit (index : Json) : Prop :=
  ∃ before entry after, index = .arr (before ++ entry :: after) ∧
    (∀ earlier ∈ before, ∃ novena, Novena.ofJson earlier = .ok novena) ∧ Novena.Misfit entry

theorem ofJson_graveUnless {allowed : Failure → Prop} {held : Prop} {index : Json}
    (admits : Failure.AdmitsChecks allowed held)
    (within : ∀ failure, allowed failure → ∀ entry, allowed (failure.within entry none none))
    (written : held → index.isWritable = true) :
    GraveUnless (.wrongType .other) allowed (¬Misfit index) (ofJson index) := by
  cases index with
  | arr entries =>
    have each : ∀ entry ∈ entries, held → entry.isWritable = true :=
      fun entry listed holds => Json.isWritable_arr.mp (written holds) entry listed
    refine (GraveUnless.mapM fun entry listed =>
      Novena.ofJson_graveUnless admits within (each entry listed)).congr ?_
    simp only [Misfit, Json.arr.injEq]
  | _ =>
    exact .of_holds (Checked.refuse_failsOnly admits (List.forall_mem_nil _)
      fun _ => List.forall_mem_nil _) (by simp [Misfit])

/-- The value of a text has no integer that is too long to be written. -/
theorem load_graveUnless {text : String} {value : Json}
    (parsed : Json.parse Json.nestingLimit text = .ok value) :
    GraveUnless (.wrongType .other) Failure.IsInvalid (¬Misfit value) (load text) := by
  rw [load_of_parse parsed]
  exact ofJson_graveUnless Failure.admitsChecks_isInvalid (fun _ own _ => own.within _ _ _)
    fun _ => Json.isWritable_of_parse parsed

/-- Rules, entries and indexes are read or refused as having an invalid parameter, and an index that
is read from a text is read as its value is. Only misfits end otherwise: a policy that is an array or
an object, tags or patronage that are a number or a truth value are of the wrong type, of which
nothing is told. A value that no text spells can also fail by an integer too long to be written. -/
theorem refuses (value : Json) :
    GraveUnless (.wrongType .other) (Failure.TellsOf value) (¬Rule.Misfit value)
        (Rule.ofJson value) ∧
      GraveUnless (.wrongType .other) (Failure.TellsOf value) (¬Novena.Misfit value)
        (Novena.ofJson value) ∧
      GraveUnless (.wrongType .other) (Failure.TellsOf value) (¬Misfit value) (ofJson value) ∧
      ∀ text, Json.parse Json.nestingLimit text = .ok value →
        load text = ofJson value ∧
          GraveUnless (.wrongType .other) Failure.IsInvalid (¬Misfit value) (load text) := by
  have admits := Failure.admitsChecks_tellsOf value
  have within : ∀ failure : Failure, failure.TellsOf value → ∀ entry,
      (failure.within entry none none).TellsOf value := fun _ own _ => own.within _ _ _
  exact ⟨Rule.ofJson_graveUnless admits id, Novena.ofJson_graveUnless admits within id,
    ofJson_graveUnless admits within id, fun _ parsed => ⟨load_of_parse parsed,
      load_graveUnless parsed⟩⟩

def taggedText : String :=
  "[\x7b\"id\": \"a\", " ++
    "\"feastRule\": \x7b\"type\": \"anchor\", \"anchor\": \"easter\"\x7d, \"tags\": 5\x7d]"

def taggedValue : Json :=
  .arr [.obj [("id", .str "a"),
    ("feastRule", .obj [("type", .str "anchor"), ("anchor", .str "easter")]), ("tags", .int 5)]]

theorem parse_taggedText : Json.parse Json.nestingLimit taggedText = .ok taggedValue := by
  decide +kernel

theorem misfit_taggedValue : Misfit taggedValue := by
  refine ⟨[], _, [], rfl, nofun, ⟨_, rfl⟩, Or.inr ⟨⟨_, rfl⟩, Or.inr ⟨⟨none, rfl⟩, Or.inl ⟨rfl, rfl⟩⟩⟩⟩

theorem refuses_tagged : load taggedText = .error (.wrongType .other) := by
  obtain ⟨-, -, -, loads⟩ := refuses taggedValue
  exact (loads taggedText parse_taggedText).2.leave fun fits => fits misfit_taggedValue

/-- Not every index is read or refused as having an invalid parameter. -/
theorem not_all_told :
    ¬∀ text value, Json.parse Json.nestingLimit text = .ok value →
      FailsOnly Failure.IsInvalid (load text) := by
  intro told
  have escapes := (load_graveUnless parse_taggedText).leave fun fits => fits misfit_taggedValue
  exact Failure.not_isInvalid_wrongType .other (told _ _ parse_taggedText _ escapes)

end NovenaIndex

end FeastCalendar
