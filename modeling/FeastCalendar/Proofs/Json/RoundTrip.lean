import Mathlib.Data.List.Nodup
import FeastCalendar.Attempt
import FeastCalendar.Json.Order
import FeastCalendar.Proofs.Json.Token
import FeastCalendar.Proofs.Json.Writable

/-!
JSON text written and read back. The reader gives back what was written for a value, if the value is
one that the reader could have given: integers within the limit on digits, keys distinct, nested no
deeper than allowed.
-/

namespace FeastCalendar.Json

/-- A value whose numbers are integers and whose texts are made of characters. -/
inductive Plain : Json → Prop
  | null : Plain null
  | bool (value : Bool) : Plain (bool value)
  | int (value : Int) : Plain (int value)
  | str (text : Text) (scalar : text.IsScalar) : Plain (str text)
  | arr (items : List Json) (each : ∀ item ∈ items, Plain item) : Plain (arr items)
  | obj (members : Keyed Text Json) (names : ∀ entry ∈ members, entry.1.IsScalar)
    (each : ∀ entry ∈ members, Plain entry.2) : Plain (obj members)

theorem plain_str_iff {text : Text} : (str text).Plain ↔ text.IsScalar :=
  ⟨fun plain => by cases plain; assumption, .str text⟩

theorem plain_arr_iff {items : List Json} : (arr items).Plain ↔ ∀ item ∈ items, item.Plain :=
  ⟨fun plain => by cases plain; assumption, .arr items⟩

theorem plain_obj_iff {members : Keyed Text Json} :
    (obj members).Plain ↔
      (∀ entry ∈ members, entry.1.IsScalar) ∧ ∀ entry ∈ members, entry.2.Plain :=
  ⟨fun plain => by cases plain; exact ⟨‹_›, ‹_›⟩, fun both => .obj members both.1 both.2⟩

/-- A plain value that can stand in a text whose reader may enter so many levels more. -/
inductive Spellable : Nat → Json → Prop
  | null {room : Nat} : Spellable room null
  | bool {room : Nat} (value : Bool) : Spellable room (bool value)
  | int {room : Nat} (value : Int)
    (short : (Text.natDigits value.natAbs).length ≤ Text.digitLimit) : Spellable room (int value)
  | str {room : Nat} (text : Text) (scalar : text.IsScalar) : Spellable room (str text)
  | arr {room : Nat} (items : List Json) (each : ∀ item ∈ items, Spellable room item) :
    Spellable (room + 1) (arr items)
  | obj {room : Nat} (members : Keyed Text Json) (distinct : (Keyed.keys members).Nodup)
    (names : ∀ entry ∈ members, entry.1.IsScalar)
    (each : ∀ entry ∈ members, Spellable room entry.2) : Spellable (room + 1) (obj members)

theorem Spellable.isWritable {room : Nat} {value : Json} (spellable : Spellable room value) :
    value.isWritable = true := by
  induction spellable with
  | int value short => exact Text.isWritable_iff.mpr short
  | arr items _ ih => exact isWritable_arr.mpr ih
  | obj members _ _ _ ih => exact isWritable_obj.mpr ih
  | _ => rfl

theorem Spellable.of_member? {room : Nat} {value own : Json} {name : Text}
    (spellable : Spellable room value) (found : value.member? name = some own) :
    ∃ inner, room = inner + 1 ∧ Spellable inner own := by
  cases spellable with
  | obj members distinct names each => exact ⟨_, rfl, each _ (Keyed.mem_of_find? found)⟩
  | _ => cases found

theorem spellable_record {room : Nat} {members : Keyed Text Json} (names : List String)
    (keys : Keyed.keys members = names.map Text.ofString) (distinct : names.Nodup)
    (each : ∀ entry ∈ members, Spellable room entry.2) : Spellable (room + 1) (obj members) := by
  apply Spellable.obj members ?_ ?_ each
  · rw [keys]
    exact List.Nodup.map (fun _ _ same => Text.ofString_inj.mp same) distinct
  · intro entry member
    have named : entry.1 ∈ names.map Text.ofString := keys ▸ List.mem_map_of_mem member
    obtain ⟨name, -, same⟩ := List.mem_map.mp named
    exact same ▸ Text.isScalar_ofString name

theorem Spellable.isScalar_display {room : Nat} {value : Json} (spellable : Spellable room value) :
    value.display.IsScalar := by
  cases spellable with
  | str text scalar => exact scalar
  | _ => exact Text.isScalar_ofString _

section Between

variable {rest : List Char}

def Opens (c : Char) : Prop := c ∉ [' ', '\t', '\n', '\r', ']']

instance (c : Char) : Decidable (Opens c) := inferInstanceAs (Decidable (c ∉ _))

theorem skipBlanks_of_opens {c : Char} (opens : Opens c) (rest : List Char) :
    skipBlanks (c :: rest) = c :: rest := by
  simp only [Opens, List.mem_cons, List.not_mem_nil, or_false, not_or] at opens
  obtain ⟨blank, tab, line, turn, -⟩ := opens
  simp [skipBlanks, blank, tab, line, turn]

theorem skipBlanks_itemBreak (layout : Layout) (depth : Nat) (first : Bool) (rest : List Char) :
    skipBlanks (itemBreak layout depth first ++ rest) = skipBlanks rest := by
  unfold itemBreak
  split
  next width _ =>
    have blank : ∀ count, skipBlanks (List.replicate count ' ' ++ rest) = skipBlanks rest := by
      intro count
      induction count with
      | zero => rfl
      | succ count ih => rw [List.replicate_succ, List.cons_append, ← ih]; rfl
    exact blank _
  next => cases first <;> rfl

theorem endsNumber_cons {c : Char} (ends : isDigit c = false ∧ c ≠ '.' ∧ c ≠ 'e' ∧ c ≠ 'E')
    (rest : List Char) : EndsNumber (c :: rest) := by
  intro first same
  cases same
  exact ends

theorem endsNumber_itemBreak (layout : Layout) (depth : Nat) {c : Char}
    (ends : EndsNumber (c :: rest)) : EndsNumber (itemBreak layout depth true ++ c :: rest) := by
  unfold itemBreak
  split
  next => exact endsNumber_cons (by decide) _
  next => exact ends

end Between

/-- What is written for a value is read back, wherever it stands. -/
structure ReadsBack (layout : Layout) (room : Nat) (value : Json) : Prop where
  opens : ∀ depth, ∃ c tail, write layout depth value = c :: tail ∧ Opens c
  reads : ∀ depth fuel rest, (write layout depth value).length ≤ fuel → EndsNumber rest →
    readValue fuel room (write layout depth value ++ rest) = .ok (value, rest)

section Values

variable {layout : Layout} {room depth : Nat}

theorem ReadsBack.skipBlanks {value : Json} (back : ReadsBack layout room value)
    (depth : Nat) (rest : List Char) :
    skipBlanks (write layout depth value ++ rest) = write layout depth value ++ rest := by
  obtain ⟨c, tail, shape, opens⟩ := back.opens depth
  rw [shape, List.cons_append, skipBlanks_of_opens opens]

theorem readsBack_of_token {value : Json} {c : Char} {tail : List Char}
    (shape : ∀ depth, write layout depth value = c :: tail) (opens : Opens c)
    (reads : ∀ fuel rest, EndsNumber rest →
      readValue (fuel + 1) room (c :: tail ++ rest) = .ok (value, rest)) :
    ReadsBack layout room value := by
  constructor
  · exact fun depth => ⟨c, tail, shape depth, opens⟩
  · intro depth fuel rest enough ends
    rw [shape depth] at enough ⊢
    obtain ⟨fuel, rfl⟩ := Nat.exists_eq_add_one.mpr (Nat.zero_lt_of_lt enough)
    exact reads fuel rest ends

theorem readsBack_null : ReadsBack layout room null :=
  readsBack_of_token (fun _ => rfl) (by decide) fun _ _ _ => rfl

theorem readsBack_bool (value : Bool) : ReadsBack layout room (bool value) := by
  cases value
  · exact readsBack_of_token (fun _ => rfl) (by decide) fun _ _ _ => rfl
  · exact readsBack_of_token (fun _ => rfl) (by decide) fun _ _ _ => rfl

theorem readsBack_str {text : Text} (scalar : text.IsScalar) :
    ReadsBack layout room (str text) := by
  constructor
  · exact fun depth => ⟨'"', _, rfl, by decide⟩
  · intro depth fuel rest enough _
    obtain ⟨opened, shape, reads⟩ := readString_writeString layout.asciiOnly scalar rest
    obtain ⟨fuel, rfl⟩ := Nat.exists_eq_add_one.mpr (Nat.zero_lt_of_lt enough)
    rw [write, shape, readValue.eq_6, reads]
    rfl

theorem readValue_digit {c : Char} (digit : isDigit c = true) (fuel : Nat) (rest : List Char) :
    readValue (fuel + 1) room (c :: rest) = readNumber (c :: rest) := by
  apply readValue.eq_13
  all_goals
    intro tail same
    rw [(List.cons.inj same).1] at digit
    exact absurd digit (by decide)

theorem readValue_minus {c : Char} (digit : isDigit c = true) (fuel : Nat) (rest : List Char) :
    readValue (fuel + 1) room ('-' :: c :: rest) = readNumber ('-' :: c :: rest) := by
  apply readValue.eq_13
  case x_11 =>
    intro tail same
    rw [(List.cons.inj (List.cons.inj same).2).1] at digit
    exact absurd digit (by decide)
  all_goals exact fun _ same => absurd (List.cons.inj same).1 (by decide)

theorem opens_of_isDigit {c : Char} (digit : isDigit c = true) : Opens c := by
  intro blank
  simp only [List.mem_cons, List.not_mem_nil, or_false] at blank
  rcases blank with rfl | rfl | rfl | rfl | rfl
  all_goals exact absurd digit (by decide)

theorem readsBack_int {value : Int}
    (short : (Text.natDigits value.natAbs).length ≤ Text.digitLimit) :
    ReadsBack layout room (int value) := by
  obtain ⟨c, digits, shape, digit⟩ := exists_natDigits_cons value.natAbs
  by_cases negative : value < 0
  · have text : (Text.intText value).toList = '-' :: c :: digits := by
      rw [Text.intText, if_pos negative, String.toList_ofList, shape]
    refine readsBack_of_token (fun _ => text) (by decide) fun fuel rest ends => ?_
    rw [List.cons_append, List.cons_append, readValue_minus digit, ← List.cons_append,
      ← List.cons_append, ← text, readNumber_intText short ends]
  · have text : (Text.intText value).toList = c :: digits := by
      rw [Text.intText, if_neg negative, String.toList_ofList, shape]
    refine readsBack_of_token (fun _ => text) (opens_of_isDigit digit) fun fuel rest ends => ?_
    rw [List.cons_append, readValue_digit digit, ← List.cons_append, ← text,
      readNumber_intText short ends]

theorem readItems_write (outer : Nat) (rest : List Char) {item : Json} {items : List Json}
    (each : ∀ other ∈ item :: items, ReadsBack layout room other) {fuel : Nat}
    (enough : (write layout depth item).length + (writeItems layout depth items).length < fuel) :
    readItems fuel room (write layout depth item ++ (writeItems layout depth items ++
      (itemBreak layout outer true ++ ']' :: rest))) = .ok (item :: items, rest) := by
  obtain ⟨fuel, rfl⟩ := Nat.exists_eq_add_one.mpr (Nat.zero_lt_of_lt enough)
  have first := each item (List.mem_cons_self ..)
  -- Each item takes one step of fuel and leaves enough for the text of the items after it.
  induction items generalizing item fuel with
  | nil =>
    have ends := endsNumber_itemBreak layout outer (endsNumber_cons (c := ']') (by decide) rest)
    have read := first.reads depth fuel _ (by omega) ends
    simp only [writeItems, List.nil_append, readItems.eq_2, read, bind, Except.bind,
      skipBlanks_itemBreak]
    rfl
  | cons next items ih =>
    simp only [writeItems, List.length_append, List.length_cons] at enough
    have read := first.reads depth fuel (',' :: (itemBreak layout depth false ++
      (write layout depth next ++ (writeItems layout depth items ++
        (itemBreak layout outer true ++ ']' :: rest))))) (by omega)
      (endsNumber_cons (by decide) _)
    have own := each next (by simp)
    obtain ⟨fuel, rfl⟩ : ∃ less, fuel = less + 1 := Nat.exists_eq_add_one.mpr (by omega)
    have later := ih (fun other member => each other (List.mem_cons_of_mem _ member)) fuel
      (by omega) own
    simp only [writeItems, List.cons_append, List.append_assoc, readItems.eq_2 _ _ (fuel + 1), read,
      bind, Except.bind, skipBlanks_of_opens (c := ',') (by decide), skipBlanks_itemBreak,
      own.skipBlanks, later]
    rfl

theorem readMembers_name {name : Text} (scalar : name.IsScalar) (layout : Layout) (fuel : Nat)
    {value : Json} (back : ReadsBack layout room value) (rest : List Char) :
    readMembers (fuel + 1) room (writeString layout.asciiOnly name ++ (':' :: ' ' ::
        (write layout depth value ++ rest))) =
      readValue fuel room (write layout depth value ++ rest) >>= fun (value, rest) =>
        match skipBlanks rest with
        | ',' :: rest => do
          let (members, rest) ← readMembers fuel room (skipBlanks rest)
          return ((name, value) :: members, rest)
        | '\x7d' :: rest => return ([(name, value)], rest)
        | _ => throw .malformed := by
  obtain ⟨opened, shape, reads⟩ := readString_writeString layout.asciiOnly scalar
    (':' :: ' ' :: (write layout depth value ++ rest))
  have blank : skipBlanks (' ' :: (write layout depth value ++ rest)) =
      write layout depth value ++ rest := back.skipBlanks depth rest
  have read := readMembers.eq_2 room fuel opened
  rw [reads] at read
  simp only [orMalformed, bind, Except.bind, skipBlanks_of_opens (c := ':') (by decide), blank]
    at read
  rw [shape]
  exact read

theorem readMembers_write (outer : Nat) (rest : List Char) {name : Text} {value : Json}
    {members : List (Text × Json)}
    (names : ∀ entry ∈ (name, value) :: members, entry.1.IsScalar)
    (each : ∀ entry ∈ (name, value) :: members, ReadsBack layout room entry.2) {fuel : Nat}
    (enough : (write layout depth value).length + (writeMembers layout depth members).length <
      fuel) :
    readMembers fuel room (writeString layout.asciiOnly name ++ (':' :: ' ' ::
      (write layout depth value ++ (writeMembers layout depth members ++
        (itemBreak layout outer true ++ '\x7d' :: rest))))) = .ok ((name, value) :: members, rest) := by
  obtain ⟨fuel, rfl⟩ := Nat.exists_eq_add_one.mpr (Nat.zero_lt_of_lt enough)
  have scalar := names (name, value) (List.mem_cons_self ..)
  have first : ReadsBack layout room value := each (name, value) (List.mem_cons_self ..)
  induction members generalizing name value fuel with
  | nil =>
    have ends := endsNumber_itemBreak layout outer (endsNumber_cons (c := '\x7d') (by decide) rest)
    have read := first.reads depth fuel _ (by omega) ends
    simp only [writeMembers, List.nil_append, readMembers_name scalar layout fuel first, read, bind,
      Except.bind, skipBlanks_itemBreak]
    rfl
  | cons next members ih =>
    obtain ⟨key, own⟩ := next
    simp only [writeMembers, List.length_append, List.length_cons] at enough
    have read := first.reads depth fuel (',' :: (itemBreak layout depth false ++
      (writeString layout.asciiOnly key ++ (':' :: ' ' :: (write layout depth own ++
        (writeMembers layout depth members ++ (itemBreak layout outer true ++ '\x7d' :: rest)))))))
      (by omega) (endsNumber_cons (by decide) _)
    have back := each (key, own) (by simp)
    obtain ⟨fuel, rfl⟩ : ∃ less, fuel = less + 1 := Nat.exists_eq_add_one.mpr (by omega)
    have later := ih (fun other member => names other (List.mem_cons_of_mem _ member))
      (fun other member => each other (List.mem_cons_of_mem _ member)) fuel (by omega)
      (names (key, own) (by simp)) back
    have quote : ∀ tail, skipBlanks (writeString layout.asciiOnly key ++ tail) =
        writeString layout.asciiOnly key ++ tail :=
      fun tail => skipBlanks_of_opens (c := '"') (by decide) _
    simp only [writeMembers, List.cons_append, List.nil_append, List.append_assoc,
      readMembers_name scalar layout (fuel + 1) first, read, bind, Except.bind,
      skipBlanks_of_opens (c := ',') (by decide), skipBlanks_itemBreak, quote, later]
    rfl

theorem readValue_items {c : Char} (opens : Opens c) (fuel depth : Nat) (rest : List Char) :
    readValue (fuel + 1) (room + 1) ('[' :: (itemBreak layout depth true ++ c :: rest)) =
      readItems fuel room (c :: rest) >>= fun (items, rest) => return (arr items, rest) := by
  rw [readValue.eq_5, skipBlanks_itemBreak, skipBlanks_of_opens opens]
  split
  next same =>
    rw [(List.cons.inj same).1] at opens
    exact absurd opens (by decide)
  next => rfl

theorem readValue_members (fuel depth : Nat) (rest : List Char) :
    readValue (fuel + 1) (room + 1) ('\x7b' :: (itemBreak layout depth true ++ '"' :: rest)) =
      readMembers fuel room ('"' :: rest) >>= fun (members, rest) =>
        return (obj (Keyed.ofEntries members), rest) := by
  rw [readValue.eq_3, skipBlanks_itemBreak, skipBlanks_of_opens (c := '"') (by decide)]
  rfl

theorem readsBack_arr {items : List Json} (each : ∀ item ∈ items, ReadsBack layout room item) :
    ReadsBack layout (room + 1) (arr items) := by
  cases items with
  | nil => exact readsBack_of_token (fun _ => rfl) (by decide) fun _ _ _ => rfl
  | cons item items =>
    constructor
    · exact fun depth => ⟨'[', _, rfl, by decide⟩
    · intro depth fuel rest enough _
      obtain ⟨fuel, rfl⟩ := Nat.exists_eq_add_one.mpr (Nat.zero_lt_of_lt enough)
      simp only [write, List.length_append, List.length_cons] at enough
      have enoughBelow : (write layout (depth + 1) item).length +
          (writeItems layout (depth + 1) items).length < fuel := by omega
      have read := readItems_write depth rest each enoughBelow
      obtain ⟨c, tail, shape, opens⟩ := (each item (List.mem_cons_self ..)).opens (depth + 1)
      simp only [write, List.cons_append, List.append_assoc, List.nil_append]
      rw [shape, List.cons_append] at read ⊢
      rw [readValue_items opens, read]
      rfl

theorem readsBack_obj {members : Keyed Text Json} (distinct : (Keyed.keys members).Nodup)
    (names : ∀ entry ∈ members, entry.1.IsScalar)
    (each : ∀ entry ∈ members, ReadsBack layout room entry.2) :
    ReadsBack layout (room + 1) (obj members) := by
  cases members with
  | nil => exact readsBack_of_token (fun _ => rfl) (by decide) fun _ _ _ => rfl
  | cons first members =>
    obtain ⟨name, value⟩ := first
    constructor
    · exact fun depth => ⟨'\x7b', _, rfl, by decide⟩
    · intro depth fuel rest enough _
      obtain ⟨fuel, rfl⟩ := Nat.exists_eq_add_one.mpr (Nat.zero_lt_of_lt enough)
      simp only [write, List.length_append, List.length_cons] at enough
      have enoughBelow : (write layout (depth + 1) value).length +
          (writeMembers layout (depth + 1) members).length < fuel := by omega
      have read := readMembers_write depth rest names each enoughBelow
      simp only [write, List.cons_append, List.append_assoc, List.nil_append]
      rw [writeString, List.cons_append, List.cons_append] at read ⊢
      rw [readValue_members, read]
      exact congrArg (fun kept => Except.ok (obj kept, rest)) (Keyed.ofEntries_eq_self distinct)

theorem readsBack_of_spellable {value : Json} (spellable : Spellable room value) :
    ReadsBack layout room value := by
  induction spellable with
  | null => exact readsBack_null
  | bool value => exact readsBack_bool value
  | int value short => exact readsBack_int short
  | str text scalar => exact readsBack_str scalar
  | arr items _ ih => exact readsBack_arr ih
  | obj members distinct names _ ih => exact readsBack_obj distinct names ih

end Values

/-- A value that can be spelled is read back from its text, however the text is laid out. -/
theorem parse_render (layout : Layout) {depth : Nat} {value : Json}
    (spellable : Spellable depth value) : parse depth (render layout value) = .ok value := by
  have back : ReadsBack layout depth value := readsBack_of_spellable spellable
  have read := back.reads 0 ((write layout 0 value).length + 1) [] (Nat.le_succ _) nofun
  have front := back.skipBlanks 0 []
  rw [List.append_nil] at read front
  simp only [parse, render, String.toList_ofList, front, read, bind, Except.bind]
  rfl

section Reads

variable {room fuel : Nat} {text rest : List Char} {value : Json}

theorem ne_nil_of_readWhole {digits : List Char} (read : readWhole text = some (digits, rest)) :
    digits ≠ [] := by
  unfold readWhole at read
  split at read
  next =>
    cases read
    exact List.cons_ne_nil _ _
  next =>
    split at read
    next => cases read
    next filled =>
      cases read
      exact filled

theorem isFloat_or_short_of_readNumber (read : readNumber text = .ok (value, rest)) :
    (∃ x, value = float x) ∨
      ∃ n, value = int n ∧ (Text.natDigits n.natAbs).length ≤ Text.digitLimit := by
  unfold readNumber at read
  split at read
  next negative unsigned _ =>
    obtain ⟨⟨whole, after⟩, found, read⟩ := Attempt.bind_eq_ok.mp read
    simp only at read
    split at read
    next =>
      obtain ⟨n, bounded, same⟩ := Attempt.bind_eq_ok.mp read
      obtain ⟨magnitude, bounded, cast⟩ := Attempt.bind_eq_ok.mp (Attempt.mapError_eq_ok.mp bounded)
      obtain ⟨short, rfl⟩ := Text.boundedValue_eq_ok.mp bounded
      cases cast
      cases same
      have filled : whole ≠ [] := by
        cases spelled : readWhole unsigned with
        | none =>
          rw [spelled] at found
          cases found
        | some parts =>
          rw [spelled] at found
          cases found
          exact ne_nil_of_readWhole spelled
      have same : (if negative = true then -(Text.digitsValue whole : Int)
          else Text.digitsValue whole).natAbs = Text.digitsValue whole := by
        split <;> simp
      refine Or.inr ⟨_, rfl, ?_⟩
      rw [same]
      exact (Text.length_natDigits_digitsValue filled).trans short
    next =>
      cases read
      exact Or.inl ⟨_, rfl⟩

/-- What holds of whatever the reader makes, told of each kind of value that it makes where so many
levels more may be entered. -/
structure HoldsOfRead (holds : Nat → Json → Prop) : Prop where
  null {room : Nat} : holds room null
  bool {room : Nat} (value : Bool) : holds room (bool value)
  int {room : Nat} (n : Int) (short : (Text.natDigits n.natAbs).length ≤ Text.digitLimit) :
    holds room (int n)
  float {room : Nat} (value : Decimal.Binary64) : holds room (float value)
  str {room : Nat} (text : Text) : holds room (str text)
  arr {room : Nat} {items : List Json} (each : ∀ item ∈ items, holds room item) :
    holds (room + 1) (arr items)
  obj {room : Nat} {members : Keyed Text Json} (distinct : (Keyed.keys members).Nodup)
    (each : ∀ entry ∈ members, holds room entry.2) : holds (room + 1) (obj members)

structure ReadsHolding (holds : Nat → Json → Prop) (fuel : Nat) : Prop where
  value {room : Nat} {text rest : List Char} {value : Json} :
    readValue fuel room text = .ok (value, rest) → holds room value
  items {room : Nat} {text rest : List Char} {items : List Json} :
    readItems fuel room text = .ok (items, rest) → ∀ item ∈ items, holds room item
  members {room : Nat} {text rest : List Char} {members : List (Text × Json)} :
    readMembers fuel room text = .ok (members, rest) → ∀ entry ∈ members, holds room entry.2

variable {holds : Nat → Json → Prop}

theorem ReadsHolding.value_succ (made : HoldsOfRead holds) (below : ReadsHolding holds fuel)
    (read : readValue (fuel + 1) room text = .ok (value, rest)) : holds room value := by
  unfold readValue at read
  -- One case for each way in which the text can begin, in the order of the reader.
  split at read
  next tail =>
    cases room with
    | zero => cases read
    | succ room =>
      simp only at read
      split at read
      next =>
        cases read
        exact made.obj List.nodup_nil (List.forall_mem_nil _)
      next =>
        obtain ⟨⟨members, after⟩, found, same⟩ := Attempt.bind_eq_ok.mp read
        cases same
        exact made.obj (Keyed.nodup_keys_ofEntries members)
          fun entry member => below.members found entry (Keyed.mem_ofEntries member)
  next tail =>
    cases room with
    | zero => cases read
    | succ room =>
      simp only at read
      split at read
      next =>
        cases read
        exact made.arr (List.forall_mem_nil _)
      next =>
        obtain ⟨⟨items, after⟩, found, same⟩ := Attempt.bind_eq_ok.mp read
        cases same
        exact made.arr (below.items found)
  next tail =>
    obtain ⟨⟨text, after⟩, found, same⟩ := Attempt.bind_eq_ok.mp read
    cases same
    exact made.str _
  next =>
    cases read
    exact made.null
  next =>
    cases read
    exact made.bool true
  next =>
    cases read
    exact made.bool false
  next =>
    cases read
    exact made.float _
  next =>
    cases read
    exact made.float _
  next =>
    cases read
    exact made.float _
  next =>
    rcases isFloat_or_short_of_readNumber read with ⟨x, rfl⟩ | ⟨n, rfl, short⟩
    · exact made.float x
    · exact made.int n short

theorem ReadsHolding.items_succ (below : ReadsHolding holds fuel) {items : List Json}
    (read : readItems (fuel + 1) room text = .ok (items, rest)) :
    ∀ item ∈ items, holds room item := by
  rw [readItems.eq_2] at read
  obtain ⟨⟨first, after⟩, found, read⟩ := Attempt.bind_eq_ok.mp read
  simp only at read
  split at read
  next tail _ =>
    obtain ⟨⟨others, last⟩, later, same⟩ := Attempt.bind_eq_ok.mp read
    cases same
    exact List.forall_mem_cons.mpr ⟨below.value found, below.items later⟩
  next =>
    cases read
    exact List.forall_mem_singleton.mpr (below.value found)
  next => cases read

theorem ReadsHolding.members_succ (below : ReadsHolding holds fuel) {members : List (Text × Json)}
    (read : readMembers (fuel + 1) room text = .ok (members, rest)) :
    ∀ entry ∈ members, holds room entry.2 := by
  unfold readMembers at read
  split at read
  next tail =>
    obtain ⟨⟨name, after⟩, named, read⟩ := Attempt.bind_eq_ok.mp read
    simp only at read
    split at read
    next =>
      obtain ⟨⟨first, after⟩, found, read⟩ := Attempt.bind_eq_ok.mp read
      simp only at read
      split at read
      next =>
        obtain ⟨⟨others, last⟩, later, same⟩ := Attempt.bind_eq_ok.mp read
        cases same
        exact List.forall_mem_cons.mpr ⟨below.value found, below.members later⟩
      next =>
        cases read
        exact List.forall_mem_singleton.mpr (below.value found)
      next => cases read
    next => cases read
  next => cases read

theorem HoldsOfRead.readsHolding (made : HoldsOfRead holds) (fuel : Nat) :
    ReadsHolding holds fuel := by
  induction fuel with
  | zero => exact ⟨nofun, nofun, nofun⟩
  | succ fuel ih => exact ⟨ih.value_succ made, ih.items_succ, ih.members_succ⟩

theorem HoldsOfRead.of_parse (made : HoldsOfRead holds) {depth : Nat} {text : String}
    (parsed : parse depth text = .ok value) : holds depth value := by
  obtain ⟨⟨found, rest⟩, read, whole⟩ := Attempt.bind_eq_ok.mp parsed
  simp only at whole
  split at whole
  next =>
    cases whole
    exact (made.readsHolding _).value read
  next => cases whole

theorem spellable_of_parse {depth : Nat} {text : String}
    (parsed : parse depth text = .ok value) (plain : value.Plain) : Spellable depth value := by
  have made : HoldsOfRead fun room value => value.Plain → Spellable room value := by
    constructor
    case null => exact fun _ => .null
    case bool => exact fun value _ => .bool value
    case int => exact fun n short _ => .int n short
    case float => exact fun _ plain => nomatch plain
    case str => exact fun text plain => .str text (plain_str_iff.mp plain)
    case arr =>
      intro room items each plain
      exact .arr items fun item member => each item member (plain_arr_iff.mp plain item member)
    case obj =>
      intro room members distinct each plain
      obtain ⟨names, own⟩ := plain_obj_iff.mp plain
      exact .obj members distinct names fun entry member => each entry member (own entry member)
  exact made.of_parse parsed plain

/-- Every value that was read can be written: the limit is the same for both. -/
theorem isWritable_of_parse {depth : Nat} {text : String} (parsed : parse depth text = .ok value) :
    value.isWritable = true := by
  have made : HoldsOfRead fun _ value => value.isWritable = true := by
    constructor
    case int => exact fun n short => Text.isWritable_iff.mpr short
    case arr => exact isWritable_arr.mpr
    case obj => exact fun _ => isWritable_obj.mpr
    all_goals intros; rfl
  exact made.of_parse parsed

end Reads

section Alike

theorem alikeItems_self {items : List Json} (each : ∀ item ∈ items, alike item item = true) :
    alikeItems items items = true := by
  induction items with
  | nil => rfl
  | cons item items ih =>
    obtain ⟨first, rest⟩ := List.forall_mem_cons.mp each
    simp [alikeItems, first, ih rest]

theorem alikeMembers_of_found {members others : Keyed Text Json}
    (each : ∀ entry ∈ members, Keyed.find? others entry.1 = some entry.2 ∧
      alike entry.2 entry.2 = true) : alikeMembers members others = true := by
  induction members with
  | nil => rfl
  | cons entry members ih =>
    obtain ⟨⟨found, first⟩, rest⟩ := List.forall_mem_cons.mp each
    obtain ⟨name, value⟩ := entry
    simp only [alikeMembers, found, first, ih rest, Bool.and_self]

theorem Spellable.alike_self {room : Nat} {value : Json} (spellable : Spellable room value) :
    alike value value = true := by
  induction spellable with
  | null => simp [alike]
  | bool value => cases value <;> rfl
  | int value short => simp [alike, size?, Size.compare?]
  | str text scalar => simp [alike]
  | arr items _ ih => simpa [alike] using alikeItems_self ih
  | obj members distinct _ _ ih =>
    have self := alikeMembers_of_found fun entry member =>
      ⟨(Keyed.find?_eq_some_iff distinct).mpr member, ih entry member⟩
    simpa [alike] using self

end Alike

end FeastCalendar.Json
