import FeastCalendar.Json.Printer
import FeastCalendar.Json.Reader
import FeastCalendar.Proofs.Text.Numeral

/-!
Strings and integers of JSON text. What is written for one is read back, whatever follows it; after
an integer nothing may follow that could be a part of the number.
-/

namespace FeastCalendar

def Text.IsScalar (text : Text) : Prop := ∀ point ∈ text, ∃ c, point = .char c

theorem Text.isScalar_ofString (text : String) : (Text.ofString text).IsScalar := by
  intro point member
  obtain ⟨c, -, rfl⟩ := List.mem_map.mp member
  exact ⟨c, rfl⟩

namespace Json

theorem hexValue?_hexDigit : ∀ {n : Nat}, n < 16 → hexValue? (Text.hexDigit n) = some n := by
  have all : ∀ n < 16, hexValue? (Text.hexDigit n) = some n := by decide
  exact fun {n} small => all n small

theorem escapedUnit_append (n : Nat) (rest : List Char) :
    escapedUnit n ++ rest = '\\' :: 'u' :: Text.hexDigit (n / 16 / 16 / 16 % 16) ::
      Text.hexDigit (n / 16 / 16 % 16) :: Text.hexDigit (n / 16 % 16) :: Text.hexDigit (n % 16) ::
        rest := rfl

theorem hexUnit?_hexDigits {n : Nat} (small : n < 0x10000) :
    hexUnit? (Text.hexDigit (n / 16 / 16 / 16 % 16)) (Text.hexDigit (n / 16 / 16 % 16))
      (Text.hexDigit (n / 16 % 16)) (Text.hexDigit (n % 16)) = some n := by
  have digit : ∀ m : Nat, hexValue? (Text.hexDigit (m % 16)) = some (m % 16) :=
    fun m => hexValue?_hexDigit (Nat.mod_lt m (by decide))
  simp only [hexUnit?, digit, Option.bind_eq_bind, Option.bind_some, Option.some.injEq]
  omega

section Strings

variable {fuel : Nat} {rest tail : List Char} {points : Text}

theorem readString_simple {escape c : Char} (named : simpleEscape? escape = some c)
    (later : readString fuel rest = some (points, tail)) :
    readString (fuel + 1) ('\\' :: escape :: rest) = some (.char c :: points, tail) := by
  have other : escape ≠ 'u' := by
    rintro rfl
    cases named
  rw [readString.eq_4 fuel escape rest fun _ _ _ _ _ same => absurd same other, named, later]
  rfl

theorem readString_unit {n : Nat} (small : n < 0x10000) (whole : ∀ low, joined? n low = none)
    (later : readString fuel rest = some (points, tail)) :
    readString (fuel + 1) (escapedUnit n ++ rest) = some (.ofNumber n :: points, tail) := by
  have alone : (unitAhead? rest).bind (joined? n) = none := by
    cases unitAhead? rest with
    | none => rfl
    | some low => exact whole low
  rw [escapedUnit_append, readString.eq_3, hexUnit?_hexDigits small]
  simp only [Option.bind_eq_bind, Option.bind_some, alone, later]

theorem readString_pair {high low : Nat} {c : Char} (highSmall : high < 0x10000)
    (lowSmall : low < 0x10000) (together : joined? high low = some c)
    (later : readString fuel rest = some (points, tail)) :
    readString (fuel + 1) (escapedUnit high ++ escapedUnit low ++ rest) =
      some (.char c :: points, tail) := by
  have ahead : unitAhead? (escapedUnit low ++ rest) = some low := by
    rw [escapedUnit_append, unitAhead?, hexUnit?_hexDigits lowSmall]
  have after : (escapedUnit low ++ rest).drop 6 = rest := rfl
  rw [List.append_assoc, escapedUnit_append high, readString.eq_3, hexUnit?_hexDigits highSmall]
  simp only [Option.bind_eq_bind, Option.bind_some, ahead, together, after, later]

theorem readString_plain {c : Char} (printable : 32 ≤ c.toNat) (quote : c ≠ '"')
    (backslash : c ≠ '\\') (later : readString fuel rest = some (points, tail)) :
    readString (fuel + 1) (c :: rest) = some (.char c :: points, tail) := by
  rw [readString.eq_5 fuel c rest quote (fun _ _ _ _ _ same => absurd same backslash)
    (fun _ _ same => absurd same backslash)]
  have kept : (decide (c.toNat < 32) || decide (c = '\\')) = false := by
    simp [backslash, printable]
  rw [kept, later]
  rfl

theorem joined?_eq_none {high : Nat} (outside : high < 0xD800 ∨ 0xE000 ≤ high) (low : Nat) :
    joined? high low = none := by
  unfold joined?
  split
  next range =>
    simp only [Bool.and_eq_true, decide_eq_true_eq] at range
    omega
  next => rfl

/-- How a character is escaped: by a letter, not at all, by its number, or by the two halves of a
pair. -/
inductive Escaped (c : Char) : List Char → Prop
  | letter (escape : Char) (named : simpleEscape? escape = some c) : Escaped c ['\\', escape]
  | plain (printable : 32 ≤ c.toNat) (quote : c ≠ '"') (backslash : c ≠ '\\') : Escaped c [c]
  | unit (small : c.toNat < 0x10000) : Escaped c (escapedUnit c.toNat)
  | pair (large : 0x10000 ≤ c.toNat) : Escaped c
    (escapedUnit (0xD800 + (c.toNat - 0x10000) / 0x400) ++
      escapedUnit (0xDC00 + (c.toNat - 0x10000) % 0x400))

theorem escaped_escapeChar (asciiOnly : Bool) (c : Char) : Escaped c (escapeChar asciiOnly c) := by
  by_cases quote : c = '"'
  · subst quote
    exact .letter '"' rfl
  by_cases backslash : c = '\\'
  · subst backslash
    exact .letter '\\' rfl
  by_cases line : c = '\n'
  · subst line
    exact .letter 'n' rfl
  by_cases turn : c = '\r'
  · subst turn
    exact .letter 'r' rfl
  by_cases tab : c = '\t'
  · subst tab
    exact .letter 't' rfl
  by_cases back : c = '\x08'
  · subst back
    exact .letter 'b' rfl
  by_cases feed : c = '\x0c'
  · subst feed
    exact .letter 'f' rfl
  rw [escapeChar, if_neg quote, if_neg backslash, if_neg line, if_neg turn, if_neg tab, if_neg back,
    if_neg feed]
  split
  next control => exact .unit (by omega)
  split
  next => exact .plain (by omega) quote backslash
  split
  next small => exact .unit small
  next large => exact .pair (by omega)

theorem readString_escapeChar (asciiOnly : Bool) (c : Char)
    (later : readString fuel rest = some (points, tail)) :
    readString (fuel + 1) (escapeChar asciiOnly c ++ rest) = some (.char c :: points, tail) := by
  have outside := CodePoint.number_char c
  have self : CodePoint.ofNumber c.toNat = .char c := CodePoint.ofNumber_number (.char c)
  rw [CodePoint.number] at outside
  have escaped := escaped_escapeChar asciiOnly c
  generalize escapeChar asciiOnly c = shape at escaped ⊢
  cases escaped with
  | letter escape named => exact readString_simple named later
  | plain printable quote backslash => exact readString_plain printable quote backslash later
  | unit small =>
    rw [← self]
    exact readString_unit small (joined?_eq_none (by omega)) later
  | pair large =>
    have limit : c.toNat < 0x110000 := by
      rcases c.valid with low | high
      · exact Nat.lt_trans low (by decide)
      · exact high.2
    have together : joined? (0xD800 + (c.toNat - 0x10000) / 0x400)
        (0xDC00 + (c.toNat - 0x10000) % 0x400) = some c := by
      have sum : 0x10000 + (0xD800 + (c.toNat - 0x10000) / 0x400 - 0xD800) * 0x400 +
          (0xDC00 + (c.toNat - 0x10000) % 0x400 - 0xDC00) = c.toNat := by omega
      rw [joined?, sum, Char.ofNat_toNat, if_pos]
      simp only [Bool.and_eq_true, decide_eq_true_eq]
      omega
    exact readString_pair (by omega) (by omega) together later

theorem escapeChar_ne_nil (asciiOnly : Bool) (c : Char) : escapeChar asciiOnly c ≠ [] := by
  have escaped := escaped_escapeChar asciiOnly c
  generalize escapeChar asciiOnly c = shape at escaped ⊢
  cases escaped with
  | _ => exact List.cons_ne_nil _ _

theorem length_le_escaped (asciiOnly : Bool) {text : Text} (scalar : text.IsScalar) :
    text.length ≤ (text.flatMap (escapePoint asciiOnly)).length := by
  induction text with
  | nil => exact Nat.le_refl 0
  | cons point text ih =>
    obtain ⟨c, rfl⟩ := scalar point (List.mem_cons_self ..)
    have first : 0 < (escapePoint asciiOnly (.char c)).length :=
      List.length_pos_iff.mpr (escapeChar_ne_nil asciiOnly c)
    have others := ih fun other member => scalar other (List.mem_cons_of_mem _ member)
    simp only [List.flatMap_cons, List.length_append, List.length_cons]
    omega

theorem readString_escaped (asciiOnly : Bool) {text : Text} (scalar : text.IsScalar)
    (enough : text.length < fuel) :
    readString fuel (text.flatMap (escapePoint asciiOnly) ++ '"' :: rest) = some (text, rest) := by
  induction text generalizing fuel with
  | nil =>
    obtain ⟨fuel, rfl⟩ := Nat.exists_eq_add_one.mpr enough
    rfl
  | cons point text ih =>
    obtain ⟨c, rfl⟩ := scalar point (List.mem_cons_self ..)
    obtain ⟨fuel, rfl⟩ := Nat.exists_eq_add_one.mpr (Nat.zero_lt_of_lt enough)
    rw [List.flatMap_cons, List.append_assoc]
    apply readString_escapeChar
    apply ih fun other member => scalar other (List.mem_cons_of_mem _ member)
    exact Nat.lt_of_succ_lt_succ enough

/-- The string of a text is read back as the text, with the length of what follows as fuel. -/
theorem readString_writeString (asciiOnly : Bool) {text : Text} (scalar : text.IsScalar)
    (rest : List Char) :
    ∃ opened, writeString asciiOnly text ++ rest = '"' :: opened ∧
      readString (opened.length + 1) opened = some (text, rest) := by
  refine ⟨text.flatMap (escapePoint asciiOnly) ++ '"' :: rest, by simp [writeString], ?_⟩
  apply readString_escaped asciiOnly scalar
  have longer := length_le_escaped asciiOnly scalar
  rw [List.length_append]
  omega

end Strings

section Numbers

def EndsNumber (rest : List Char) : Prop :=
  ∀ c ∈ rest.head?, isDigit c = false ∧ c ≠ '.' ∧ c ≠ 'e' ∧ c ≠ 'E'

variable {rest : List Char}

theorem isDigit_of_mem_natDigits {n : Nat} {c : Char} (member : c ∈ Text.natDigits n) :
    isDigit c = true := by
  have digit := Nat.isDigit_of_mem_toDigits (by decide) (by decide) member
  simp only [Char.isDigit, Bool.and_eq_true, decide_eq_true_eq, ge_iff_le,
    UInt32.le_iff_toNat_le] at digit
  simp only [isDigit, Bool.and_eq_true, decide_eq_true_eq]
  exact digit

theorem exists_natDigits_cons (n : Nat) :
    ∃ c digits, Text.natDigits n = c :: digits ∧ isDigit c = true := by
  cases shape : Text.natDigits n with
  | nil => exact absurd shape Nat.toDigits_ne_nil
  | cons c digits => exact ⟨c, digits, rfl, isDigit_of_mem_natDigits (shape ▸ List.mem_cons_self ..)⟩

theorem readFraction_of_ends (ends : EndsNumber rest) : readFraction rest = ([], rest) := by
  unfold readFraction
  split
  next => exact absurd rfl (ends _ rfl).2.1
  next => rfl

theorem readExponent_of_ends (ends : EndsNumber rest) : readExponent rest = (none, rest) := by
  unfold readExponent
  split
  next => rfl
  next c tail =>
    have other := (ends c rfl).2.2
    rw [if_neg (by simp [other])]

theorem takeWhile_digits {digits : List Char} (all : ∀ c ∈ digits, isDigit c = true)
    (ends : EndsNumber rest) : (digits ++ rest).takeWhile isDigit = digits ∧
      (digits ++ rest).dropWhile isDigit = rest := by
  have stop : rest.takeWhile isDigit = [] ∧ rest.dropWhile isDigit = rest := by
    cases rest with
    | nil => exact ⟨rfl, rfl⟩
    | cons c tail => simp [(ends c rfl).1]
  rw [List.takeWhile_append_of_pos all, List.dropWhile_append_of_pos all, stop.1, stop.2,
    List.append_nil]
  exact ⟨rfl, rfl⟩

theorem exists_natDigits_eq {n : Nat} (nonzero : n ≠ 0) :
    ∃ c digits, Text.natDigits n = c :: digits ∧ c ≠ '0' := by
  induction n using Nat.strongRecOn with
  | _ n ih =>
    by_cases small : n < 10
    · refine ⟨_, [], Text.natDigits_of_lt small, ?_⟩
      rwa [ne_eq, Nat.digitChar_eq_zero]
    · obtain ⟨c, digits, front, other⟩ := ih (n / 10) (by omega) (by omega)
      refine ⟨c, digits ++ [Nat.digitChar (n % 10)], ?_, other⟩
      rw [Text.natDigits_of_le (Nat.le_of_not_lt small), front, List.cons_append]

theorem readWhole_natDigits (n : Nat) (ends : EndsNumber rest) :
    readWhole (Text.natDigits n ++ rest) = some (Text.natDigits n, rest) := by
  by_cases zero : n = 0
  · subst zero
    rfl
  · obtain ⟨c, digits, shape, other⟩ := exists_natDigits_eq zero
    have taken := takeWhile_digits (fun d member => @isDigit_of_mem_natDigits n d member) ends
    rw [shape, List.cons_append] at taken ⊢
    rw [readWhole.eq_2 _ fun _ same => other (List.cons.inj same).1, taken.1, taken.2]

theorem readNumber_intText {n : Int} (short : (Text.natDigits n.natAbs).length ≤ Text.digitLimit)
    (ends : EndsNumber rest) : readNumber ((Text.intText n).toList ++ rest) = .ok (int n, rest) := by
  have value : Text.boundedValue (Text.natDigits n.natAbs) = .ok n.natAbs :=
    Text.boundedValue_eq_ok.mpr ⟨short, Text.digitsValue_natDigits n.natAbs⟩
  by_cases negative : n < 0
  · have magnitude : -(n.natAbs : Int) = n := by omega
    rw [Text.intText, if_pos negative, String.toList_ofList, List.cons_append, readNumber.eq_1,
      readWhole_natDigits _ ends]
    simp only [orMalformed, readFraction_of_ends ends, readExponent_of_ends ends, value, bind,
      Except.bind, pure, Except.pure, Except.mapError, List.isEmpty_nil, Option.isNone_none,
      Bool.and_self, if_true, magnitude]
  · have magnitude : (n.natAbs : Int) = n := by omega
    have unsigned : ∀ tail, Text.natDigits n.natAbs ++ rest = '-' :: tail → False := by
      obtain ⟨c, digits, shape, digit⟩ := exists_natDigits_cons n.natAbs
      intro tail same
      rw [shape, List.cons_append] at same
      rw [(List.cons.inj same).1] at digit
      cases digit
    rw [Text.intText, if_neg negative, String.toList_ofList, readNumber.eq_2 _ unsigned,
      readWhole_natDigits _ ends]
    simp only [orMalformed, readFraction_of_ends ends, readExponent_of_ends ends, value, bind,
      Except.bind, pure, Except.pure, Except.mapError, List.isEmpty_nil, Option.isNone_none,
      Bool.and_self, Bool.false_eq_true, if_true, if_false, magnitude]

end Numbers

end Json

end FeastCalendar
