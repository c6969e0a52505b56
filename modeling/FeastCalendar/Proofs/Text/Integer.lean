import Mathlib.Data.List.TakeWhile
import FeastCalendar.Attempt
import FeastCalendar.Proofs.Text.Blank
import FeastCalendar.Proofs.Text.Numeral

/-!
Integers read from text. Plain decimal digits are read as the number that they spell, with zeros
before them or without.
-/

namespace FeastCalendar.Text

/-- Decimal digits and nothing else, at least one and no more than a numeral may have. -/
structure IsNumeral (digits : List Char) : Prop where
  filled : digits ≠ []
  decimal : ∀ c ∈ digits, 48 ≤ c.toNat ∧ c.toNat ≤ 57
  short : digits.length ≤ digitLimit

theorem not_isNumeralBlank_of_bounds {c : Char} (bounds : 48 ≤ c.toNat ∧ c.toNat ≤ 57) :
    isNumeralBlank c = false := by
  simp [isNumeralBlank, isBlank]
  omega

theorem ne_of_bounds {c other : Char} (bounds : 48 ≤ c.toNat ∧ c.toNat ≤ 57)
    (outside : other.toNat < 48) : c ≠ other := by
  rintro rfl
  omega

theorem groupedDigits?_of_digits {digits : List Char} (decimal : ∀ c ∈ digits, isDigit c = true)
    {after : Bool} (begun : after = true ∨ digits ≠ []) :
    groupedDigits? after digits = some digits := by
  induction digits generalizing after with
  | nil =>
    have here : after = true := begun.resolve_right fun filled => filled rfl
    rw [groupedDigits?, if_pos here]
  | cons c rest ih =>
    rw [List.forall_mem_cons] at decimal
    rw [groupedDigits?, if_pos decimal.1, ih decimal.2 (Or.inl rfl), Option.map_some]

namespace IsNumeral

variable {digits : List Char}

theorem magnitude_eq (numeral : IsNumeral digits) (text : String) :
    magnitude text digits = .ok (digitsValue digits) := by
  have decimal : ∀ c ∈ digits, isDigit c = true := fun c member =>
    isDigit_of_bounds (numeral.decimal c member)
  have belongs : ∀ c ∈ digits, (isDigit c || c = '_') = true := fun c member => by
    rw [decimal c member, Bool.true_or]
  have bounded : boundedValue digits = .ok (digitsValue digits) :=
    boundedValue_eq_ok.mpr ⟨numeral.short, rfl⟩
  have nothing : digits.dropWhile (fun c => isDigit c || c = '_') = [] :=
    List.dropWhile_eq_nil_iff.mpr belongs
  simp only [magnitude, List.takeWhile_eq_self_iff.mpr belongs, nothing,
    groupedDigits?_of_digits decimal (Or.inr numeral.filled), bounded, Attempt.ok_bind]
  rfl

theorem readInt_eq (numeral : IsNumeral digits) :
    readInt (String.ofList digits) = .ok (digitsValue digits : Int) := by
  obtain ⟨c, rest, rfl⟩ := List.exists_cons_of_ne_nil numeral.filled
  have own := numeral.decimal c (List.mem_cons_self ..)
  have front : (c :: rest).dropWhile isNumeralBlank = c :: rest :=
    List.dropWhile_cons_of_neg (by simp [not_isNumeralBlank_of_bounds own])
  have whole : dropTail isNumeralBlank (c :: rest) = c :: rest := by
    have kept : ∀ d, (c :: rest).getLast? = some d → isNumeralBlank d = false := fun d last =>
      not_isNumeralBlank_of_bounds (numeral.decimal d (List.mem_of_getLast? last))
    simpa using @dropTail_append isNumeralBlank (c :: rest) [] (by simp) kept
  have minus : c ≠ '-' := ne_of_bounds own (by decide)
  have plus : c ≠ '+' := ne_of_bounds own (by decide)
  rw [readInt, String.toList_ofList, front, whole]
  split
  next same => exact absurd (List.cons.inj same).1 minus
  next same => exact absurd (List.cons.inj same).1 plus
  next =>
    rw [numeral.magnitude_eq]
    rfl

end IsNumeral

theorem digitsValue_zeros (room : Nat) (digits : List Char) :
    digitsValue (List.replicate room '0' ++ digits) = digitsValue digits := by
  induction room with
  | zero => rfl
  | succ room ih => exact ih

theorem digitsValue_padded (width n : Nat) : digitsValue (padded width n) = n := by
  rw [padded, digitsValue_zeros, digitsValue_natDigits]

theorem isNumeral_padded {width n : Nat} (positive : 0 < width) (fits : n < 10 ^ width)
    (narrow : width ≤ digitLimit) : IsNumeral (padded width n) := by
  refine ⟨?_, ?_, ?_⟩
  · exact List.append_ne_nil_of_right_ne_nil _ (natDigits_ne_nil n)
  · intro c member
    rcases List.mem_append.mp member with zero | digit
    · rw [List.eq_of_mem_replicate zero]
      decide
    · exact mem_natDigits_bounds digit
  · rw [length_padded positive fits]
    exact narrow

theorem readInt_padded {width : Nat} {n : Int} (positive : 0 < width) (nonneg : 0 ≤ n)
    (fits : n.toNat < 10 ^ width) (narrow : width ≤ digitLimit) :
    readInt (String.ofList (padded width n.toNat)) = .ok n := by
  rw [(isNumeral_padded positive fits narrow).readInt_eq, digitsValue_padded,
    Int.toNat_of_nonneg nonneg]

end FeastCalendar.Text
