import FeastCalendar.Novena.Wire
import FeastCalendar.Proofs.Novena.Index
import FeastCalendar.Proofs.Rule.Settled

/-!
Novenas as JSON objects. What is written for a novena that was read is read back as the novena with
its rules settled, members without meaning included.
-/

namespace FeastCalendar
open Json (Spellable)

def RuleSlot.IsStored (room : Nat) (slot : RuleSlot) : Prop :=
  slot.IsWorded ∧ ∀ rule, slot = .rule rule → rule.toJson.Spellable room

namespace Novena

variable {room : Nat} {novena : Novena}

/-- A novena as an index holds it, its members so deep that `room` levels more may be entered below
them. -/
structure IsStored (room : Nat) (novena : Novena) : Prop where
  feast : novena.feast.IsStored (room + 1)
  start : ∀ slot, novena.start = some slot → slot.IsStored (room + 1)
  title : ∃ text, novena.title = .str text
  category : novena.category.isNothing = false
  id : novena.id.val.IsScalar
  values : ∀ value ∈ [novena.title, novena.duration, novena.category, .arr novena.tags,
    novena.description, .arr novena.patronage, novena.image, novena.notes],
    value.Spellable (room + 1)
  source : novena.source.Spellable room
  extraNames : ∀ entry ∈ novena.extra, entry.1 ∉ knownMembers ∧ entry.1.IsScalar
  extraDistinct : (Keyed.keys novena.extra).Nodup
  extraValues : ∀ entry ∈ novena.extra, entry.2.Spellable (room + 1)

def settled (novena : Novena) : Novena :=
  { novena with feast := novena.feast.settled, start := novena.start.map RuleSlot.settled }

section Written

def given? : Json → Option Json
  | .null => none
  | value => some value

theorem getD_given? (value : Json) : (given? value).getD .null = value := by
  cases value <;> rfl

def sourceObject? : Json → Option Json
  | .null => none
  | url => some (.obj [("url", url)])

theorem member?_sourceObject? (url : Json) :
    (((sourceObject? url).getD .null).member? "url").getD .null = url := by
  cases url <;> rfl

/-- What is written for a novena with these rules, under the names of the members with meaning. -/
def wireValues (novena : Novena) (feast : Rule) (start : Option Rule) :
    List (String × Option Json) := [
  ("id", some (.str novena.id.val)), ("title", some novena.title),
  ("startRule", start.map Rule.toJson), ("feastRule", some feast.toJson),
  ("durationDays", given? novena.duration), ("category", some novena.category),
  ("tags", some (.arr novena.tags)), ("description", some novena.description),
  ("patronage", some (.arr novena.patronage)), ("image", some novena.image),
  ("notes", some novena.notes), ("source", sourceObject? novena.source)]

def written (values : List (String × Option Json)) : Keyed Text Json :=
  values.filterMap fun entry => entry.2.map fun value => (Text.ofString entry.1, value)

theorem keys_written (values : List (String × Option Json)) :
    (Keyed.keys (written values)).Sublist (values.map fun entry => Text.ofString entry.1) := by
  induction values with
  | nil => exact List.Sublist.refl _
  | cons entry values ih =>
    obtain ⟨name, value?⟩ := entry
    cases value? with
    | none => exact ih.cons _
    | some value => exact ih.cons_cons _

theorem mem_written {values : List (String × Option Json)} {entry : Text × Json}
    (member : entry ∈ written values) :
    ∃ name, entry.1 = Text.ofString name ∧ (name, some entry.2) ∈ values := by
  obtain ⟨⟨name, value?⟩, listed, same⟩ := List.mem_filterMap.mp member
  obtain ⟨value, rfl, rfl⟩ := Option.map_eq_some_iff.mp same
  exact ⟨name, rfl, listed⟩

theorem find?_written {values : List (String × Option Json)} {name : String} {value? : Option Json}
    (distinct : (values.map Prod.fst).Nodup) (member : (name, value?) ∈ values) :
    Keyed.find? (written values) name = value? := by
  induction values with
  | nil => cases member
  | cons entry values ih =>
    obtain ⟨other, other?⟩ := entry
    rw [List.map_cons, List.nodup_cons] at distinct
    rcases List.mem_cons.mp member with here | later
    · cases here
      cases value? with
      | none =>
        rw [Keyed.find?_eq_none_iff]
        intro listed
        obtain ⟨own, member, same⟩ := List.mem_map.mp ((keys_written values).subset listed)
        exact distinct.1 (List.mem_map.mpr ⟨own, member, Text.ofString_inj.mp same⟩)
      | some value => simp [written, Keyed.find?]
    · have different : other ≠ name := by
        rintro rfl
        exact distinct.1 (List.mem_map.mpr ⟨_, later, rfl⟩)
      have rest := ih distinct.2 later
      cases other? with
      | none => exact rest
      | some value => simpa [written, Keyed.find?, Text.ofString_inj, different] using rest

def wireNames : List String := ["id", "title", "startRule", "feastRule", "durationDays", "category",
  "tags", "description", "patronage", "image", "notes", "source"]

theorem mem_knownMembers {name : Text} :
    name ∈ knownMembers ↔ name ∈ wireNames.map Text.ofString := by
  have same : knownMembers.Perm (wireNames.map Text.ofString) := by decide
  exact same.mem_iff

section Members

variable {feast : Rule} {start : Option Rule}

theorem keys_wireMembers :
    (Keyed.keys (written (wireValues novena feast start))).Sublist
      (wireNames.map Text.ofString) :=
  keys_written (wireValues novena feast start)

theorem toMembers_eq (feasts : novena.feast = .rule feast) (starts : novena.start = start.map .rule) :
    novena.toMembers =
      .ok (Keyed.putAll (written (wireValues novena feast start)) novena.extra) := by
  obtain ⟨id, title, _, _, duration, category, tags, description, patronage, image, notes, source,
    extra⟩ := novena
  cases feasts
  cases starts
  cases start <;> cases duration <;> cases source <;> rfl

variable (names : ∀ entry ∈ novena.extra, entry.1 ∉ knownMembers)
include names

theorem nodup_keys_members (distinct : (Keyed.keys novena.extra).Nodup) :
    (Keyed.keys (written (wireValues novena feast start) ++ novena.extra)).Nodup := by
  have wire : (wireNames.map Text.ofString).Nodup := by decide
  rw [Keyed.keys, List.map_append]
  apply List.Nodup.append
  · exact keys_wireMembers.nodup wire
  · exact distinct
  · intro name known extra
    obtain ⟨entry, member, rfl⟩ := List.mem_map.mp extra
    exact names entry member (mem_knownMembers.mpr (keys_wireMembers.subset known))

theorem find?_members : ∀ entry ∈ wireValues novena feast start,
    Keyed.find? (written (wireValues novena feast start) ++ novena.extra) entry.1 = entry.2 := by
  intro entry member
  have wire : ((wireValues novena feast start).map Prod.fst).Nodup := show wireNames.Nodup by decide
  have named : entry.1 ∈ wireNames :=
    show entry.1 ∈ (wireValues novena feast start).map Prod.fst from List.mem_map_of_mem member
  have absent : Keyed.find? novena.extra entry.1 = none := by
    rw [Keyed.find?_eq_none_iff]
    intro listed
    obtain ⟨other, own, same⟩ := List.mem_map.mp listed
    apply names other own
    rw [mem_knownMembers, same]
    exact List.mem_map_of_mem named
  rw [Keyed.find?_append, find?_written wire member, absent, Option.or_none]

theorem filter_members :
    (written (wireValues novena feast start) ++ novena.extra).filter
      (fun entry => !knownMembers.contains entry.1) = novena.extra := by
  rw [List.filter_append]
  have none : (written (wireValues novena feast start)).filter
      (fun entry => !knownMembers.contains entry.1) = [] := by
    rw [List.filter_eq_nil_iff]
    intro entry member
    have known : entry.1 ∈ knownMembers :=
      mem_knownMembers.mpr (keys_wireMembers.subset (List.mem_map_of_mem member))
    simpa using known
  have all : novena.extra.filter (fun entry => !knownMembers.contains entry.1) = novena.extra := by
    rw [List.filter_eq_self]
    intro entry member
    simpa using names entry member
  rw [none, all, List.nil_append]

end Members

end Written

theorem listed_arr (items : List Json) : listed (.arr items) = .ok items := by
  cases items <;> rfl

theorem optionalRule_toJson (start : Option Rule) :
    optionalRule ((start.map Rule.toJson).getD .null) =
      .ok (start.map fun rule => .rule rule.settled) := by
  cases start with
  | none => rfl
  | some rule =>
    have read : optionalRule rule.toJson = (do return some (.rule (← Rule.ofJson rule.toJson))) := rfl
    rw [Option.map_some, Option.getD_some, read, Rule.ofJson_toJson]
    rfl

theorem ofMembers_of_found {members : Keyed Text Json} {feast : Rule} {start : Option Rule}
    (found : ∀ entry ∈ wireValues novena feast start, Keyed.find? members entry.1 = entry.2)
    (kept : members.filter (fun entry => !knownMembers.contains entry.1) = novena.extra)
    (feasts : novena.feast = .rule feast) (starts : novena.start = start.map .rule)
    (titled : ∃ text, novena.title = .str text) (filled : novena.category.isNothing = false) :
    ofMembers members = .ok novena.settled := by
  simp only [wireValues, List.forall_mem_cons] at found
  obtain ⟨id, title, startRule, feastRule, duration, category, tags, description, patronage, image,
    notes, source, -⟩ := found
  have key : Checked.key "novena.id" (.str novena.id.val) = .ok novena.id :=
    Checked.key_eq_ok.mpr rfl
  obtain ⟨text, titled⟩ := titled
  have rules : novena.settled = { novena with
      feast := .rule feast.settled, start := start.map fun rule => .rule rule.settled } := by
    rw [settled, feasts, starts, Option.map_map]
    rfl
  simp only [ofMembers, id, title, startRule, feastRule, duration, category, tags, description,
    patronage, image, notes, source, Option.getD_some, Rule.ofJson_toJson, optionalRule_toJson,
    listed_arr, key, getD_given?, member?_sourceObject?, filled, titled, Json.written_str, kept,
    rules, bind, Except.bind, pure, Except.pure, Bool.false_eq_true, if_false]

section Read

variable {members : Keyed Text Json}

theorem spellable_of_listed {value : Json} {items : List Json} (read : listed value = .ok items)
    (spellable : value.Spellable (room + 1)) : (Json.arr items).Spellable (room + 1) := by
  unfold listed at read
  split at read
  next =>
    cases read
    exact .arr [] (List.forall_mem_nil _)
  next =>
    split at read
    next own found =>
      cases read
      cases spellable with
      | arr items each =>
        cases found
        exact .arr _ each
      | str text scalar =>
        cases found
        refine .arr _ fun item member => ?_
        obtain ⟨point, listed, rfl⟩ := List.mem_map.mp member
        exact .str _ (by simpa [Text.IsScalar] using scalar point listed)
      | obj members _ names _ =>
        cases found
        refine .arr _ fun item member => ?_
        obtain ⟨entry, listed, rfl⟩ := List.mem_map.mp member
        exact .str _ (names entry listed)
      | _ => cases found
    next => cases read

theorem isStored_of_ofJson {value : Json} {rule : Rule} (read : Rule.ofJson value = .ok rule)
    (spellable : value.Spellable room) : (RuleSlot.rule rule).IsStored room := by
  obtain ⟨-, spelled⟩ := Rule.ofJson_eq_ok.mp read
  refine ⟨Rule.isWorded_of_spelledBy spelled, ?_⟩
  rintro _ ⟨⟩
  exact Rule.spellable_toJson spelled spellable

theorem isStored_of_optionalRule {value : Json} {found : Option RuleSlot}
    (read : optionalRule value = .ok found) (spellable : value.Spellable room) :
    ∀ slot, found = some slot → slot.IsStored room := by
  rintro slot rfl
  cases value with
  | null => cases read
  | _ =>
    obtain ⟨rule, own, same⟩ := Attempt.bind_eq_ok.mp read
    cases same
    exact isStored_of_ofJson own spellable

theorem isStored_of_ofMembers (read : ofMembers members = .ok novena)
    (spellable : (Json.obj members).Spellable (room + 2)) : novena.IsStored room := by
  simp only [ofMembers, Attempt.bind_eq_ok, Attempt.pure_eq_ok] at read
  obtain ⟨title, titleRead, feast, feastRead, start, startRead, tags, tagsRead, patronage,
    patronageRead, id, idRead, rfl⟩ := read
  obtain ⟨-, rfl⟩ := Json.written_eq_ok.mp titleRead
  obtain ⟨distinct, names, each⟩ : (Keyed.keys members).Nodup ∧
      (∀ entry ∈ members, entry.1.IsScalar) ∧ ∀ entry ∈ members, entry.2.Spellable (room + 1) := by
    cases spellable with
    | obj _ distinct names each => exact ⟨distinct, names, each⟩
  have own : ∀ {name : Text} {other : Json}, other.Spellable (room + 1) →
      ((Keyed.find? members name).getD other).Spellable (room + 1) := by
    intro name other spare
    cases found : Keyed.find? members name with
    | none => exact spare
    | some value => exact each _ (Keyed.mem_of_find? found)
  have get : ∀ name : Text, ((Keyed.find? members name).getD .null).Spellable (room + 1) :=
    fun name => own .null
  constructor
  case feast => exact isStored_of_ofJson feastRead (get "feastRule")
  case start => exact isStored_of_optionalRule startRead (get "startRule")
  case title => exact ⟨_, rfl⟩
  case category =>
    simp only
    split
    next => rfl
    next something => simpa using something
  case id =>
    have spelled := get "id"
    rw [Checked.key_eq_ok.mp idRead] at spelled
    cases spelled with
    | str _ scalar => exact scalar
  case values =>
    simp only [List.forall_mem_cons]
    refine ⟨.str _ (own (get "id")).isScalar_display, get "durationDays", ?_,
      spellable_of_listed tagsRead (get "tags"), get "description",
      spellable_of_listed patronageRead (get "patronage"), get "image", get "notes",
      List.forall_mem_nil _⟩
    split
    next => exact .str _ (Text.isScalar_ofString "Devotion")
    next => exact get "category"
  case source =>
    simp only
    cases found : ((Keyed.find? members "source").getD .null).member? "url" with
    | none => exact .null
    | some url =>
      obtain ⟨inner, same, spelled⟩ := (get "source").of_member? found
      cases same
      exact spelled
  case extraNames =>
    intro entry member
    obtain ⟨listed, unknown⟩ := List.mem_filter.mp member
    exact ⟨by simpa using unknown, names entry listed⟩
  case extraDistinct => exact (List.filter_sublist.map Prod.fst).nodup distinct
  case extraValues => exact fun entry member => each entry (List.mem_of_mem_filter member)

end Read

section Stored

variable {feast : Rule} {start : Option Rule}

theorem spellable_given? {value found : Json} (spellable : value.Spellable room)
    (given : given? value = some found) : found.Spellable room := by
  rw [← getD_given? value, given] at spellable
  exact spellable

theorem spellable_sourceObject? {url found : Json} (spellable : url.Spellable room)
    (given : sourceObject? url = some found) : found.Spellable (room + 1) := by
  have single : found = .obj [("url", url)] := by
    cases url <;> simp_all [sourceObject?]
  rw [single]
  exact Json.spellable_record ["url"] rfl (by decide) (by simpa using spellable)

theorem IsStored.exists_rules (stored : novena.IsStored room) :
    ∃ feast start, novena.feast = .rule feast ∧ novena.start = start.map .rule ∧
      (RuleSlot.rule feast).IsStored (room + 1) ∧
        ∀ rule, start = some rule → (RuleSlot.rule rule).IsStored (room + 1) := by
  obtain ⟨feast, feasts, -⟩ := stored.feast.1
  cases starts : novena.start with
  | none => exact ⟨feast, none, feasts, rfl, feasts ▸ stored.feast, nofun⟩
  | some slot =>
    obtain ⟨start, same, -⟩ := (stored.start slot starts).1
    refine ⟨feast, some start, feasts, by rw [same]; rfl, feasts ▸ stored.feast, ?_⟩
    rintro _ ⟨⟩
    exact same ▸ stored.start slot starts

theorem spellable_wireValues (stored : novena.IsStored room)
    (feasts : (RuleSlot.rule feast).IsStored (room + 1))
    (starts : ∀ rule, start = some rule → (RuleSlot.rule rule).IsStored (room + 1)) :
    ∀ entry ∈ wireValues novena feast start, ∀ value, entry.2 = some value →
      value.Spellable (room + 1) := by
  have values := stored.values
  simp only [List.forall_mem_cons] at values
  obtain ⟨title, duration, category, tags, description, patronage, image, notes, -⟩ := values
  simp only [wireValues, List.forall_mem_cons, Option.some.injEq, forall_eq']
  refine ⟨.str _ stored.id, title, ?_, feasts.2 feast rfl, fun _ => spellable_given? duration,
    category, tags, description, patronage, image, notes,
    fun _ => spellable_sourceObject? stored.source, nofun⟩
  intro value found
  obtain ⟨rule, same, rfl⟩ := Option.map_eq_some_iff.mp found
  exact (starts rule same).2 rule rfl

theorem spellable_members (stored : novena.IsStored room)
    (feasts : (RuleSlot.rule feast).IsStored (room + 1))
    (starts : ∀ rule, start = some rule → (RuleSlot.rule rule).IsStored (room + 1)) :
    (Json.obj (written (wireValues novena feast start) ++ novena.extra)).Spellable (room + 2) := by
  have unknown := fun entry member => (stored.extraNames entry member).1
  apply Spellable.obj _ (nodup_keys_members unknown stored.extraDistinct)
  · intro entry member
    rcases List.mem_append.mp member with wire | extra
    · obtain ⟨name, same, -⟩ := mem_written wire
      exact same ▸ Text.isScalar_ofString name
    · exact (stored.extraNames entry extra).2
  · intro entry member
    rcases List.mem_append.mp member with wire | extra
    · obtain ⟨name, -, listed⟩ := mem_written wire
      exact spellable_wireValues stored feasts starts _ listed _ rfl
    · exact stored.extraValues entry extra

theorem wireValues_settled (feasts : (RuleSlot.rule feast).IsWorded)
    (starts : ∀ rule, start = some rule → (RuleSlot.rule rule).IsWorded) :
    wireValues novena.settled feast.settled (start.map Rule.settled) =
      wireValues novena feast start := by
  have same : (start.map Rule.settled).map Rule.toJson = start.map Rule.toJson := by
    cases start with
    | none => rfl
    | some rule => exact congrArg some (Rule.toJson_settled (starts rule rfl))
  rw [wireValues, wireValues, same, Rule.toJson_settled feasts]
  rfl

/-- A stored novena is written, the same whether its rules are settled or not, and read back as the
novena with its rules settled. -/
theorem IsStored.exists_toJson (stored : novena.IsStored room) :
    ∃ value, novena.toJson = .ok value ∧ novena.settled.toJson = .ok value ∧
      value.Spellable (room + 2) ∧ ofJson value = .ok novena.settled := by
  obtain ⟨feast, start, feasts, starts, feastStored, startStored⟩ := stored.exists_rules
  have unknown := fun entry member => (stored.extraNames entry member).1
  have distinct : (Keyed.keys (written (wireValues novena feast start) ++ novena.extra)).Nodup :=
    nodup_keys_members unknown stored.extraDistinct
  have members : novena.toMembers = .ok (written (wireValues novena feast start) ++ novena.extra) := by
    rw [toMembers_eq feasts starts, Keyed.putAll_eq_append distinct]
  have again : novena.settled.toMembers = novena.toMembers := by
    have feastsSettled : novena.settled.feast = .rule feast.settled := by
      rw [settled, feasts]
      rfl
    have startsSettled : novena.settled.start = (start.map Rule.settled).map .rule := by
      rw [settled, starts, Option.map_map, Option.map_map]
      rfl
    rw [toMembers_eq feastsSettled startsSettled, toMembers_eq feasts starts,
      wireValues_settled feastStored.1 fun rule same => (startStored rule same).1]
    rfl
  refine ⟨.obj (written (wireValues novena feast start) ++ novena.extra), ?_, ?_, ?_, ?_⟩
  · rw [toJson, members]
    rfl
  · rw [toJson, again, members]
    rfl
  · exact spellable_members stored feastStored startStored
  · exact Attempt.mapError_eq_ok.mpr (ofMembers_of_found (find?_members unknown)
      (filter_members unknown) feasts starts stored.title stored.category)

end Stored

end Novena

namespace NovenaIndex

variable {room : Nat} {novenas : List Novena}

theorem isStored_of_ofJson {value : Json} (read : ofJson value = .ok novenas)
    (spellable : value.Spellable (room + 3)) : ∀ novena ∈ novenas, novena.IsStored room := by
  cases spellable with
  | arr entries each =>
    intro novena member
    obtain ⟨entry, listed, found⟩ := (Attempt.mem_of_mapM read).mp member
    cases entry with
    | obj members =>
      exact Novena.isStored_of_ofMembers (Attempt.mapError_eq_ok.mp found) (each _ listed)
    | _ => cases found
  | _ => cases read

theorem exists_toJson (stored : ∀ novena ∈ novenas, novena.IsStored room) :
    ∃ value, toJson novenas = .ok value ∧ toJson (novenas.map Novena.settled) = .ok value ∧
      value.Spellable (room + 3) ∧ ofJson value = .ok (novenas.map Novena.settled) := by
  obtain ⟨entries, written, again, spellable, read⟩ : ∃ entries,
      novenas.mapM Novena.toJson = .ok entries ∧
        (novenas.map Novena.settled).mapM Novena.toJson = .ok entries ∧
        (∀ entry ∈ entries, Spellable (room + 2) entry) ∧
        entries.mapM Novena.ofJson = .ok (novenas.map Novena.settled) := by
    induction novenas with
    | nil => exact ⟨[], rfl, rfl, nofun, rfl⟩
    | cons novena rest ih =>
      obtain ⟨own, later⟩ := List.forall_mem_cons.mp stored
      obtain ⟨entry, written, again, spellable, read⟩ := own.exists_toJson
      obtain ⟨entries, writtenAll, againAll, spellableAll, readAll⟩ := ih later
      exact ⟨entry :: entries,
        Attempt.mapM_eq_ok.mpr (.cons written (Attempt.mapM_eq_ok.mp writtenAll)),
        Attempt.mapM_eq_ok.mpr (.cons again (Attempt.mapM_eq_ok.mp againAll)),
        List.forall_mem_cons.mpr ⟨spellable, spellableAll⟩,
        Attempt.mapM_eq_ok.mpr (.cons read (Attempt.mapM_eq_ok.mp readAll))⟩
  refine ⟨.arr entries, ?_, ?_, .arr entries spellable, read⟩
  · rw [toJson, written]
    rfl
  · rw [toJson, again]
    rfl

end NovenaIndex

end FeastCalendar
