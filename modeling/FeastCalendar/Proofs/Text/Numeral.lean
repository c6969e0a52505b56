import Mathlib.Data.List.Induction
import Mathlib.Data.Nat.Digits.Defs
import FeastCalendar.Text.Numeral

/-!
Decimal numerals. Digits spell the number they were written for, no more of them than the number
asks for; padded to one width, numerals are ordered as their numbers.
-/

namespace FeastCalendar.Text

theorem natDigits_of_lt {n : Nat} (small : n < 10) : natDigits n = [Nat.digitChar n] :=
  Nat.toDigits_of_lt_base small

theorem natDigits_of_le {n : Nat} (large : 10 ≤ n) :
    natDigits n = natDigits (n / 10) ++ [Nat.digitChar (n % 10)] :=
  Nat.toDigits_of_base_le (by decide) large

theorem natDigits_ne_nil (n : Nat) : natDigits n ≠ [] := Nat.toDigits_ne_nil

theorem mem_natDigits_bounds {n : Nat} {c : Char} (member : c ∈ natDigits n) :
    48 ≤ c.toNat ∧ c.toNat ≤ 57 := by
  have digit := Nat.isDigit_of_mem_toDigits (by decide) (by decide) member
  simp only [Char.isDigit, Bool.and_eq_true, decide_eq_true_eq, ge_iff_le,
    UInt32.le_iff_toNat_le] at digit
  exact digit

theorem isDigit_of_bounds {c : Char} (bounds : 48 ≤ c.toNat ∧ c.toNat ≤ 57) :
    isDigit c = true := by
  have ascii : c.toNat < 128 := by omega
  simp [isDigit, digitValue?, ascii, bounds]

theorem natDigits_pow (k : Nat) : natDigits (10 ^ k) = '1' :: List.replicate k '0' := by
  induction k with
  | zero => exact natDigits_of_lt (by decide)
  | succ k ih =>
    have positive : 0 < 10 ^ k := Nat.pow_pos (by decide)
    have tenth : 10 ^ (k + 1) / 10 = 10 ^ k := by
      rw [Nat.pow_succ, Nat.mul_div_cancel _ (by decide)]
    have last : 10 ^ (k + 1) % 10 = 0 := by rw [Nat.pow_succ, Nat.mul_mod_left]
    have zero : Nat.digitChar 0 = '0' := rfl
    rw [natDigits_of_le (by rw [Nat.pow_succ]; omega), tenth, last, ih, zero, List.cons_append,
      ← List.replicate_succ']

theorem digitValue?_digitChar : ∀ {n : Nat}, n < 10 → digitValue? (Nat.digitChar n) = some n := by
  have all : ∀ n < 10, digitValue? (Nat.digitChar n) = some n := by decide
  exact fun {n} small => all n small

theorem digitsValue_snoc (digits : List Char) (c : Char) :
    digitsValue (digits ++ [c]) = 10 * digitsValue digits + (digitValue? c).getD 0 := by
  simp [digitsValue]

theorem digitsValue_natDigits (n : Nat) : digitsValue (natDigits n) = n := by
  induction n using Nat.strongRecOn with
  | _ n ih =>
    by_cases small : n < 10
    · rw [natDigits_of_lt small]
      simp [digitsValue, digitValue?_digitChar small]
    · rw [natDigits_of_le (Nat.le_of_not_lt small), digitsValue_snoc, ih (n / 10) (by omega),
        digitValue?_digitChar (Nat.mod_lt n (by decide)), Option.getD_some]
      omega

theorem digitValue?_lt (c : Char) : (digitValue? c).getD 0 < 10 := by
  unfold digitValue?
  simp only
  split
  · split
    next range =>
      simp only [Bool.and_eq_true, decide_eq_true_eq] at range
      simp only [Option.getD_some]
      omega
    next => decide
  · cases found : digitZeros.find? fun start => start ≤ c.toNat && c.toNat < start + 10 with
    | none => exact Nat.zero_lt_succ 9
    | some start =>
      have range := List.find?_some found
      simp only [Bool.and_eq_true, decide_eq_true_eq] at range
      simp only [Option.map_some, Option.getD_some]
      omega

theorem digitsValue_lt (digits : List Char) : digitsValue digits < 10 ^ digits.length := by
  induction digits using List.reverseRecOn with
  | nil => decide
  | append_singleton front c ih =>
    have last := digitValue?_lt c
    rw [digitsValue_snoc, List.length_append, List.length_singleton, Nat.pow_succ]
    omega

theorem length_natDigits_digitsValue {digits : List Char} (filled : digits ≠ []) :
    (natDigits (digitsValue digits)).length ≤ digits.length :=
  (Nat.length_toDigits_le_iff (by decide) (List.length_pos_iff.mpr filled)).mpr
    (digitsValue_lt digits)

theorem boundedValue_eq_ok {digits : List Char} {n : Nat} :
    boundedValue digits = .ok n ↔
      digits.length ≤ digitLimit ∧ digitsValue digits = n := by
  unfold boundedValue
  split
  next long => simp [Nat.not_le.mpr long]
  next short => simp [Nat.le_of_not_lt short]

def padded (width n : Nat) : List Char :=
  List.replicate (width - (natDigits n).length) '0' ++ natDigits n

theorem toList_zeroPadded (width : Nat) {n : Int} (nonneg : 0 ≤ n) :
    (zeroPadded width n).toList = padded width n.toNat := by
  have magnitude : n.natAbs = n.toNat := by omega
  simp only [zeroPadded, if_neg (Int.not_lt.mpr nonneg), String.toList_ofList, padded, magnitude]

theorem padded_succ {width : Nat} (positive : 0 < width) (n : Nat) :
    padded (width + 1) n = padded width (n / 10) ++ [Nat.digitChar (n % 10)] := by
  by_cases small : n < 10
  · have tenth : n / 10 = 0 := Nat.div_eq_of_lt small
    have last : n % 10 = n := Nat.mod_eq_of_lt small
    have zeros : List.replicate (width - 1) '0' ++ ['0'] = List.replicate width '0' := by
      rw [← List.replicate_succ', Nat.sub_add_cancel positive]
    have zero : natDigits 0 = ['0'] := natDigits_of_lt (by decide)
    simp only [padded, tenth, last, natDigits_of_lt small, zero, List.length_singleton,
      Nat.add_sub_cancel, zeros]
  · have large : 10 ≤ n := Nat.le_of_not_lt small
    have width_eq : width + 1 - ((natDigits (n / 10)).length + 1) =
        width - (natDigits (n / 10)).length := Nat.add_sub_add_right ..
    rw [padded, natDigits_of_le large, List.length_append, List.length_singleton, width_eq, padded,
      List.append_assoc]

theorem padded_one {n : Nat} (small : n < 10) : padded 1 n = [Nat.digitChar n] := by
  rw [padded, natDigits_of_lt small]
  rfl

theorem length_padded {width n : Nat} (positive : 0 < width) (fits : n < 10 ^ width) :
    (padded width n).length = width := by
  have short : (natDigits n).length ≤ width :=
    (Nat.length_toDigits_le_iff (by decide) positive).mpr fits
  rw [padded, List.length_append, List.length_replicate, Nat.sub_add_cancel short]

theorem digitChar_lt : ∀ {m n : Nat}, n < 10 → m < n → Nat.digitChar m < Nat.digitChar n := by
  have all : ∀ n < 10, ∀ m < n, Nat.digitChar m < Nat.digitChar n := by decide
  exact fun {m n} small below => all n small m below

/-- Texts of one length are ordered by their first difference, whatever follows. -/
theorem append_lt_append {left right : List Char} (same : left.length = right.length)
    (below : left < right) (leftTail rightTail : List Char) :
    left ++ leftTail < right ++ rightTail := by
  induction left generalizing right with
  | nil =>
    rw [List.length_nil, eq_comm, List.length_eq_zero_iff] at same
    subst same
    exact absurd below (List.lt_irrefl [])
  | cons c rest ih =>
    cases right with
    | nil => cases same
    | cons d others =>
      rw [List.cons_append, List.cons_append, List.cons_lt_cons_iff]
      rcases List.cons_lt_cons_iff.mp below with first | ⟨alike, later⟩
      · exact Or.inl first
      · exact Or.inr ⟨alike, ih (Nat.succ.inj same) later⟩

theorem append_left_lt (front : List Char) {left right : List Char} (below : left < right) :
    front ++ left < front ++ right := by
  induction front with
  | nil => exact below
  | cons c rest ih => exact List.cons_lt_cons_iff.mpr (Or.inr ⟨rfl, ih⟩)

theorem padded_lt {width m n : Nat} (positive : 0 < width) (fits : n < 10 ^ width) (below : m < n) :
    padded width m < padded width n := by
  induction width generalizing m n with
  | zero => exact absurd positive (Nat.lt_irrefl 0)
  | succ width ih =>
    by_cases lone : width = 0
    · subst lone
      have small : n < 10 := by simpa using fits
      rw [padded_one small, padded_one (Nat.lt_trans below small), List.cons_lt_cons_iff]
      exact Or.inl (digitChar_lt small below)
    · have wide : 0 < width := Nat.pos_of_ne_zero lone
      have tenthFits : n / 10 < 10 ^ width := by
        rw [Nat.pow_succ] at fits
        omega
      rw [padded_succ wide, padded_succ wide]
      rcases Nat.lt_or_ge (m / 10) (n / 10) with tenths | tenths
      · have lengths : (padded width (m / 10)).length = (padded width (n / 10)).length := by
          rw [length_padded wide tenthFits, length_padded wide (Nat.lt_trans tenths tenthFits)]
        exact append_lt_append lengths (ih wide tenthFits tenths) _ _
      · have same : m / 10 = n / 10 := by omega
        rw [same]
        apply append_left_lt
        exact List.cons_lt_cons_iff.mpr (Or.inl (digitChar_lt (Nat.mod_lt n (by decide)) (by omega)))

end FeastCalendar.Text
