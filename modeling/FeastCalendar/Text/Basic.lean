/-!
Text as JSON can spell it: a list of code points. Escapes can name half of a surrogate pair that
stands without its other half, which no character is; every other code point is a character.
-/

namespace FeastCalendar

/-- A code point: a character, or half of a surrogate pair, counted from the first half. -/
inductive CodePoint where
  | char (value : Char)
  | surrogate (offset : Fin 0x800)
deriving DecidableEq, Repr

namespace CodePoint

instance : Coe Char CodePoint := ⟨char⟩

def number : CodePoint → Nat
  | char c => c.toNat
  | surrogate offset => 0xD800 + offset.val

/-- The code point of a number; what is none counts as the character 0. -/
def ofNumber (n : Nat) : CodePoint :=
  if half : 0xD800 ≤ n ∧ n < 0xE000 then surrogate ⟨n - 0xD800, by omega⟩ else char (Char.ofNat n)

/-- The character, the replacement character standing for a lone half. -/
def shown : CodePoint → Char
  | char c => c
  | surrogate _ => '\uFFFD'

theorem number_surrogate (offset : Fin 0x800) :
    0xD800 ≤ (surrogate offset).number ∧ (surrogate offset).number < 0xE000 := by
  simp only [number]
  omega

theorem number_char (c : Char) : (char c).number < 0xD800 ∨ 0xE000 ≤ (char c).number := by
  have valid := c.valid
  simp only [number, Char.toNat]
  rcases valid with low | high
  · exact Or.inl low
  · exact Or.inr (by have := high.1; omega)

theorem ofNumber_number (point : CodePoint) : ofNumber point.number = point := by
  cases point with
  | char c =>
    have outside := number_char c
    rw [ofNumber, dif_neg (by omega)]
    simp [number, Char.ofNat_toNat]
  | surrogate offset =>
    rw [ofNumber, dif_pos (number_surrogate offset)]
    simp [number]

theorem number_ofNumber {n : Nat} (bounded : n < 0x110000) : (ofNumber n).number = n := by
  unfold ofNumber
  split
  next half =>
    simp only [number]
    omega
  next outside =>
    have valid : n.isValidChar := by
      unfold Nat.isValidChar
      omega
    rw [number, Char.ofNat, dif_pos valid]
    rfl

instance : LT CodePoint := ⟨fun left right => left.number < right.number⟩

instance : DecidableLT CodePoint := fun left right => Nat.decLt left.number right.number

end CodePoint

abbrev Text := List CodePoint

namespace Text

def ofChars (chars : List Char) : Text := chars.map .char

def ofString (text : String) : Text := ofChars text.toList

instance : Coe String Text := ⟨ofString⟩

def chars? : Text → Option (List Char)
  | [] => some []
  | .char c :: rest => (chars? rest).map (c :: ·)
  | .surrogate _ :: _ => none

def toString? (text : Text) : Option String := text.chars?.map String.ofList

def shown (text : Text) : String := String.ofList (text.map CodePoint.shown)

theorem chars?_ofChars (chars : List Char) : chars? (ofChars chars) = some chars := by
  induction chars with
  | nil => rfl
  | cons c rest ih =>
    simp only [ofChars] at ih
    simp [ofChars, chars?, ih]

theorem toString?_ofString (text : String) : toString? (ofString text) = some text := by
  simp [toString?, ofString, chars?_ofChars]

theorem ofString_inj {left right : String} : ofString left = ofString right ↔ left = right := by
  constructor
  · intro same
    have shapes := congrArg toString? same
    simpa [toString?_ofString] using shapes
  · exact congrArg ofString

theorem ofString_eq_nil {text : String} : ofString text = [] ↔ text = "" := by
  have empty : ofString "" = [] := by simp [ofString, ofChars]
  rw [← empty, ofString_inj]

def sort (texts : List Text) : List Text :=
  texts.mergeSort fun left right => !decide (right < left)

end Text

end FeastCalendar
