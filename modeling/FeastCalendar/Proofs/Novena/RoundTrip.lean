import FeastCalendar.Proofs.Novena.Wire

/-!
Indexes written and read again. Nothing is lost but the policies of rules that name no weekday, and
those decide nothing: the novenas read again have the windows and the faults of the first ones, and
are written as the same text.
-/

namespace FeastCalendar
open Json (Spellable)

namespace Novena

variable {room : Nat} {novena : Novena}

def HasRule (novena : Novena) (rule : Rule) : Prop :=
  novena.feast = .rule rule ∨ novena.start = some (.rule rule)

theorem alikeSlots_settled {slot : RuleSlot} (worded : slot.IsWorded) :
    alikeSlots slot slot.settled = true ↔ ∀ rule, slot = .rule rule → rule.IsSettled := by
  obtain ⟨rule, rfl, wording⟩ := worded
  have same : alikeSlots (.rule rule) (.rule rule.settled) = decide (rule = rule.settled) := by
    cases rule with
    | raw text =>
      obtain ⟨_, rfl⟩ := wording text rfl
      simp [alikeSlots, Rule.settled, Wording.str, Json.alike, Json.display]
    | relative key offset weekday policy => cases weekday <;> rfl
    | _ => rfl
  rw [RuleSlot.settled, same, decide_eq_true_iff, eq_comm,
    Rule.settled_eq_self_iff ⟨rule, rfl, wording⟩]
  simp

/-- Settling its rules leaves a novena equal to what it was if they are settled already, and only
then. -/
theorem alike_settled (stored : novena.IsStored room) :
    novena.alike novena.settled = true ↔ ∀ rule, novena.HasRule rule → rule.IsSettled := by
  have values := stored.values
  simp only [List.forall_mem_cons] at values
  obtain ⟨title, duration, category, tags, description, patronage, image, notes, -⟩ := values
  have tagged : Json.alikeItems novena.tags novena.tags = true := by
    simpa [Json.alike] using tags.alike_self
  have patrons : Json.alikeItems novena.patronage novena.patronage = true := by
    simpa [Json.alike] using patronage.alike_self
  have feast := alikeSlots_settled stored.feast.1
  simp only [alike, settled, title.alike_self, duration.alike_self, category.alike_self, tagged,
    description.alike_self, patrons, image.alike_self, notes.alike_self, stored.source.alike_self,
    decide_true, Bool.true_and, Bool.and_true, Bool.and_eq_true, feast, HasRule, or_imp, forall_and]
  refine and_congr_right fun _ => ?_
  cases starts : novena.start with
  | none => simp
  | some slot => simpa using alikeSlots_settled (stored.start slot starts).1

theorem startHint_settled {start : RuleSlot} (worded : start.IsWorded) (year : Json)
    (anchors : Anchors) (feast : Civil.Date) :
    SameOutcome (novena.settled.startHint start.settled year anchors feast)
      (novena.startHint start year anchors feast) := by
  apply (RuleSlot.resolve_settled worded year anchors (some novena.feast)).bind
  intro hinted
  obtain ⟨rule, rfl, wording⟩ := worded
  cases rule with
  | fixed month day => exact SameOutcome.refl _
  | relative key offset weekday policy => cases weekday <;> exact SameOutcome.refl _
  | _ => exact SameOutcome.refl _

theorem dates_settled (stored : novena.IsStored room) (year : Json) (anchors : Anchors)
    (duration : Int) :
    SameOutcome (novena.settled.dates year anchors duration)
      (novena.dates year anchors duration) := by
  apply (RuleSlot.resolve_settled stored.feast.1 year anchors none).bind
  intro feast
  apply (SameOutcome.refl _).bind
  intro start
  cases starts : novena.start with
  | none =>
    rw [settled, starts]
    exact SameOutcome.refl _
  | some slot =>
    have same : novena.settled.start = some slot.settled := by
      rw [settled, starts]
      rfl
    rw [same]
    apply (startHint_settled (stored.start slot starts).1 year anchors feast).bind
    exact fun hint => SameOutcome.refl _

theorem resolve_settled (stored : novena.IsStored room) (year : Json) (anchors : Anchors) :
    SameOutcome (novena.settled.resolve year anchors) (novena.resolve year anchors) := by
  apply (SameOutcome.refl (novena.checkedDuration year)).bind
  intro duration
  apply ((dates_settled stored year anchors duration).within _ _ _ _).bind
  exact fun dates => SameOutcome.refl _

end Novena

namespace NovenaIndex

variable {text : String} {value : Json} {novenas : List Novena}

theorem isStored_of_load (parsed : Json.parse Json.nestingLimit text = .ok value)
    (plain : value.Plain) (loaded : load text = .ok novenas) :
    ∀ novena ∈ novenas, novena.IsStored (Json.nestingLimit - 3) := by
  rw [load_of_parse parsed] at loaded
  exact isStored_of_ofJson loaded (Json.spellable_of_parse parsed plain)

theorem dump_of_toJson {room : Nat} (made : toJson novenas = .ok value)
    (spellable : Spellable room value) : dump novenas = .ok (value.render .indented) := by
  rw [dump, made]
  exact if_pos spellable.isWritable

theorem exists_dump (stored : ∀ novena ∈ novenas, novena.IsStored (Json.nestingLimit - 3)) :
    ∃ dumped, dump novenas = .ok dumped ∧ dump (novenas.map Novena.settled) = .ok dumped ∧
      load dumped = .ok (novenas.map Novena.settled) := by
  obtain ⟨value, written, again, spellable, read⟩ := exists_toJson stored
  refine ⟨value.render .indented, dump_of_toJson written spellable,
    dump_of_toJson again spellable, ?_⟩
  have parsed : Json.parse Json.nestingLimit (value.render .indented) = .ok value :=
    Json.parse_render .indented spellable
  rw [load_of_parse parsed, read]

theorem alike_map_settled {room : Nat} (stored : ∀ novena ∈ novenas, novena.IsStored room) :
    alike novenas (novenas.map Novena.settled) = true ↔
      ∀ novena ∈ novenas, ∀ rule, novena.HasRule rule → rule.IsSettled := by
  have pairs : novenas.zip (novenas.map Novena.settled) =
      novenas.map fun novena => (novena, novena.settled) := by
    have both : (novenas.map id).zip (novenas.map Novena.settled) = _ := List.zip_map'
    rwa [List.map_id] at both
  rw [alike, pairs, List.length_map, beq_self_eq_true, Bool.true_and, List.all_map,
    List.all_eq_true]
  exact forall₂_congr fun novena member => Novena.alike_settled (stored novena member)

/-- An index that was read is written and read again. The novenas come back in their order with
their rules settled and nothing else changed, members without meaning included; they equal the first
ones if every rule without a weekday has the first policy, and only then. -/
theorem reload_settled (parsed : Json.parse Json.nestingLimit text = .ok value)
    (plain : value.Plain) (loaded : load text = .ok novenas) :
    ∃ dumped again, dump novenas = .ok dumped ∧ load dumped = .ok again ∧
      again = novenas.map Novena.settled ∧
      (alike novenas again = true ↔
        ∀ novena ∈ novenas, ∀ rule, novena.HasRule rule → rule.IsSettled) := by
  have stored := isStored_of_load parsed plain loaded
  obtain ⟨dumped, written, -, read⟩ := exists_dump stored
  exact ⟨dumped, _, written, read, rfl, alike_map_settled stored⟩

def idleText : String :=
  "[\x7b\"id\": \"idle\", \"feastRule\": \x7b\"type\": \"relative\", \"anchor\": \"easter\", " ++
    "\"offsetDays\": 1, \"weekdayPolicy\": \"onOrBefore\"\x7d\x7d]"

def idleValue : Json :=
  .arr [.obj [("id", .str "idle"), ("feastRule", .obj [("type", .str "relative"),
    ("anchor", .str "easter"), ("offsetDays", .int 1), ("weekdayPolicy", .str "onOrBefore")])]]

def idle : Novena where
  id := .named "idle"
  title := .str "idle"
  feast := .rule (.relative (.named "easter") 1 none .onOrBefore)

theorem parse_idleText : Json.parse Json.nestingLimit idleText = .ok idleValue := by
  decide +kernel

theorem plain_idleValue : idleValue.Plain := by
  simp [idleValue, Json.plain_arr_iff, Json.plain_obj_iff, Json.plain_str_iff, Json.Plain.int,
    Text.isScalar_ofString]

theorem load_idleText : load idleText = .ok [idle] := by decide +kernel

theorem not_isSettled_idle :
    ¬∀ novena ∈ [idle], ∀ rule, novena.HasRule rule → rule.IsSettled := by
  intro all
  cases all idle (List.mem_singleton.mpr rfl) _ (Or.inl rfl) _ _ _ rfl

theorem reload_settled_idle :
    ∃ dumped again, dump [idle] = .ok dumped ∧ load dumped = .ok again ∧
      again = [idle].map Novena.settled ∧ alike [idle] again = false := by
  obtain ⟨dumped, again, written, read, same, equal⟩ :=
    reload_settled parse_idleText plain_idleValue load_idleText
  exact ⟨dumped, again, written, read, same,
    Bool.eq_false_iff.mpr fun alike => not_isSettled_idle (equal.mp alike)⟩

/-- Not every index that was read is equal to itself when written and read again. -/
theorem not_always_alike :
    ¬∀ text value novenas, Json.parse Json.nestingLimit text = .ok value → value.Plain →
      load text = .ok novenas →
      ∃ dumped again, dump novenas = .ok dumped ∧ load dumped = .ok again ∧
        alike novenas again = true := by
  intro always
  obtain ⟨dumped, again, written, read, equal⟩ :=
    always _ _ _ parse_idleText plain_idleValue load_idleText
  have stored := isStored_of_load parse_idleText plain_idleValue load_idleText
  obtain ⟨_, same, -, settled⟩ := exists_dump stored
  cases written.symm.trans same
  cases read.symm.trans settled
  exact not_isSettled_idle ((alike_map_settled stored).mp equal)

/-- An index that was read is written and read again: as many novenas, which are written as the same
text, keep their members without meaning in order, and have in every year with every anchors the
windows or failures of the first ones. A rule read from a wording comes back as it was. -/
theorem reload_behaves :
    (∀ text value novenas, Json.parse Json.nestingLimit text = .ok value → value.Plain →
      load text = .ok novenas →
      ∃ dumped again, dump novenas = .ok dumped ∧ load dumped = .ok again ∧
        again.length = novenas.length ∧ dump again = .ok dumped ∧
        List.Forall₂ (fun novena other : Novena => other.extra = novena.extra ∧
          ∀ year anchors, SameOutcome (other.resolve year anchors) (novena.resolve year anchors))
          novenas again) ∧
    ∀ wording known rule, Phrase.parse wording known = .ok rule →
      Rule.ofJson rule.toJson = .ok rule := by
  refine ⟨?_, fun _ _ _ read => Phrase.ofJson_toJson_of_parse read⟩
  intro text value novenas parsed plain loaded
  have stored := isStored_of_load parsed plain loaded
  obtain ⟨dumped, written, again, read⟩ := exists_dump stored
  refine ⟨dumped, _, written, read, List.length_map _, again, ?_⟩
  rw [List.forall₂_map_right_iff, List.forall₂_same]
  exact fun novena member => ⟨rfl, Novena.resolve_settled (stored novena member)⟩

theorem reload_behaves_idle :
    (∃ dumped again, dump [idle] = .ok dumped ∧ load dumped = .ok [again] ∧
      dump [again] = .ok dumped ∧ again.extra = idle.extra ∧
      ∀ year anchors, SameOutcome (again.resolve year anchors) (idle.resolve year anchors)) ∧
    ∃ rule, Phrase.parse "10 days after easter" [] = .ok rule ∧
      Rule.ofJson rule.toJson = .ok rule := by
  obtain ⟨reloads, rereads⟩ := reload_behaves
  obtain ⟨dumped, again, written, read, -, stable, each⟩ :=
    reloads _ _ _ parse_idleText plain_idleValue load_idleText
  obtain ⟨other, rest, own, none, rfl⟩ := List.forall₂_cons_left_iff.mp each
  cases List.forall₂_nil_left_iff.mp none
  have parsed : ∃ rule, Phrase.parse "10 days after easter" [] = .ok rule := ⟨_, rfl⟩
  obtain ⟨rule, parsed⟩ := parsed
  exact ⟨⟨dumped, other, written, read, stable, own⟩, rule, parsed, rereads _ _ _ parsed⟩

end NovenaIndex

end FeastCalendar
