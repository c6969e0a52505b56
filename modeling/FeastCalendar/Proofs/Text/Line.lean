import FeastCalendar.Json.Printer
import FeastCalendar.Proofs.Text.Numeral

/-!
Texts on one line. Whatever is quoted is on one line, for a line break in it is escaped; so are
numbers, and values as messages show them.
-/

namespace FeastCalendar
open Decimal (NumberLayout)

namespace Text

/-- A text without a line break. -/
def OneLine (text : String) : Prop := '\n' ∉ text.toList

instance (text : String) : Decidable (OneLine text) := inferInstanceAs (Decidable (_ ∉ _))

@[simp] theorem oneLine_append {first second : String} :
    OneLine (first ++ second) ↔ OneLine first ∧ OneLine second := by
  simp [OneLine]

@[simp] theorem oneLine_ofList {chars : List Char} : OneLine (String.ofList chars) ↔ '\n' ∉ chars := by
  simp [OneLine]

theorem OneLine.append {first second : String} (own : OneLine first) (other : OneLine second) :
    OneLine (first ++ second) :=
  oneLine_append.mpr ⟨own, other⟩

/-- A text as it is has the line breaks of its code points; half of a pair is shown as none. -/
theorem oneLine_shown {text : Text} : OneLine text.shown ↔ CodePoint.char '\n' ∉ text := by
  have shows : ∀ point : CodePoint, point.shown = '\n' ↔ point = .char '\n' := by
    intro point
    cases point with
    | char c => simp [CodePoint.shown]
    | surrogate offset => simp [CodePoint.shown]
  rw [shown, oneLine_ofList, List.mem_map]
  simp only [shows, exists_eq_right]

theorem oneLine_joinWith {separator : String} (apart : OneLine separator) {parts : List String} :
    OneLine (joinWith separator parts) ↔ ∀ part ∈ parts, OneLine part := by
  induction parts with
  | nil => simp [joinWith, OneLine]
  | cons first rest ih =>
    cases rest with
    | nil => simp [joinWith]
    | cons second rest =>
      rw [joinWith, oneLine_append, oneLine_append, ih]
      · simp [apart]
      · exact nofun

section Quotes

theorem hexDigit_ne_newline {n : Nat} (digit : n < 16) : hexDigit n ≠ '\n' := by
  have all : ∀ n < 16, hexDigit n ≠ '\n' := by decide
  exact all n digit

theorem newline_not_mem_hexDigits (width n : Nat) : '\n' ∉ hexDigits width n := by
  induction width generalizing n with
  | zero => exact List.not_mem_nil
  | succ width ih =>
    rw [hexDigits, List.mem_append, List.mem_singleton, not_or]
    exact ⟨ih (n / 16), (hexDigit_ne_newline (Nat.mod_lt n (by decide))).symm⟩

theorem newline_not_mem_quoteChar {mark : Char} (other : mark ≠ '\n') (c : Char) :
    '\n' ∉ quoteChar mark c := by
  by_cases own : c = '\n'
  · subst own
    simp [quoteChar, other.symm]
  · have apart : '\n' ≠ c := fun same => own same.symm
    unfold quoteChar
    split_ifs <;> simp [apart, newline_not_mem_hexDigits]

theorem quoteMark_ne_newline (text : Text) : quoteMark text ≠ '\n' := by
  unfold quoteMark
  split_ifs <;> decide

theorem newline_not_mem_quoteChars (text : Text) : '\n' ∉ quoteChars text := by
  have other := quoteMark_ne_newline text
  have points : ∀ point : CodePoint, '\n' ∉ quotePoint (quoteMark text) point := by
    intro point
    cases point with
    | char c => exact newline_not_mem_quoteChar other c
    | surrogate offset => simp [quotePoint, newline_not_mem_hexDigits]
  simp [quoteChars, other.symm, points]

theorem oneLine_quote (text : Text) : OneLine (quote text) :=
  oneLine_ofList.mpr (newline_not_mem_quoteChars text)

end Quotes

section Numbers

theorem newline_not_mem_natDigits (n : Nat) : '\n' ∉ natDigits n := by
  intro member
  have bounds := mem_natDigits_bounds member
  exact absurd bounds (by decide)

theorem oneLine_intText (n : Int) : OneLine (intText n) := by
  unfold intText
  split_ifs <;> rw [oneLine_ofList] <;> simp [newline_not_mem_natDigits]

theorem oneLine_zeroPadded (width : Nat) (n : Int) : OneLine (zeroPadded width n) := by
  unfold zeroPadded
  rw [oneLine_ofList]
  split_ifs <;> simp [newline_not_mem_natDigits]

theorem oneLine_toString (n : Nat) : OneLine (toString n) := by
  have digits : toString n = String.ofList (natDigits n) := rfl
  rw [digits, oneLine_ofList]
  exact newline_not_mem_natDigits n

theorem oneLine_recordText {name : String} {fields : List (String × String)} (named : OneLine name)
    (filled : ∀ field ∈ fields, OneLine field.1 ∧ OneLine field.2) :
    OneLine (recordText name fields) := by
  have parts : ∀ part ∈ fields.map fun field => field.1 ++ "=" ++ field.2, OneLine part := by
    intro part member
    obtain ⟨field, listed, rfl⟩ := List.mem_map.mp member
    obtain ⟨key, value⟩ := filled field listed
    exact (key.append (by decide)).append value
  exact ((named.append (by decide)).append ((oneLine_joinWith (by decide)).mpr parts)).append
    (by decide)

end Numbers

end Text

namespace Decimal.NumberLayout

theorem newline_not_mem_positional {digits : List Char} (plain : '\n' ∉ digits) (exponent : Int) :
    '\n' ∉ positional digits exponent := by
  have taken : ∀ n, '\n' ∉ digits.take n := fun n member => plain (List.mem_of_mem_take member)
  have dropped : ∀ n, '\n' ∉ digits.drop n := fun n member => plain (List.mem_of_mem_drop member)
  unfold positional
  dsimp only
  split_ifs <;> simp [zeros, plain, taken, dropped]

theorem newline_not_mem_scientific (layout : NumberLayout) {digits : List Char}
    (plain : '\n' ∉ digits) (exponent : Int) : '\n' ∉ layout.scientific digits exponent := by
  have power : ∀ n, '\n' ∉ Nat.toDigits 10 n := Text.newline_not_mem_natDigits
  unfold scientific
  cases digits with
  | nil =>
    dsimp only
    split_ifs <;> simp [power]
  | cons first rest =>
    cases rest with
    | nil =>
      rw [List.mem_singleton] at plain
      dsimp only
      split_ifs <;> simp [plain, power]
    | cons second rest =>
      simp only [List.mem_cons, not_or] at plain
      dsimp only
      split_ifs <;> simp [plain, power]

theorem oneLine_render {layout : NumberLayout} (infinity : Text.OneLine layout.infinityText)
    (nan : Text.OneLine layout.nanText) (x : Binary64) : Text.OneLine (layout.render x) := by
  have digits : ∀ n, '\n' ∉ Nat.toDigits 10 n := Text.newline_not_mem_natDigits
  have positional := fun n => newline_not_mem_positional (digits n)
  have scientific := fun n => layout.newline_not_mem_scientific (digits n)
  have minus : Text.OneLine "-" := by decide
  unfold render
  dsimp only
  split_ifs <;> simp [nan, infinity, positional, scientific, minus]

end Decimal.NumberLayout

namespace Json

mutual

theorem oneLine_literal : (value : Json) → Text.OneLine value.literal
  | null => by decide
  | bool value => by cases value <;> decide
  | int value => Text.oneLine_intText value
  | float value => Decimal.NumberLayout.oneLine_render (by decide) (by decide) value
  | str text => Text.oneLine_quote text
  | arr items =>
    (Text.OneLine.append (by decide)
      ((Text.oneLine_joinWith (by decide)).mpr (oneLine_literals items))).append (by decide)
  | obj members =>
    (Text.OneLine.append (by decide)
      ((Text.oneLine_joinWith (by decide)).mpr (oneLine_memberLiterals members))).append (by decide)

theorem oneLine_literals : (items : List Json) → ∀ part ∈ literals items, Text.OneLine part
  | [] => List.forall_mem_nil _
  | item :: items => List.forall_mem_cons.mpr ⟨oneLine_literal item, oneLine_literals items⟩

theorem oneLine_memberLiterals :
    (members : List (Text × Json)) → ∀ part ∈ memberLiterals members, Text.OneLine part
  | [] => List.forall_mem_nil _
  | (name, value) :: members => List.forall_mem_cons.mpr
    ⟨((Text.oneLine_quote name).append (by decide)).append (oneLine_literal value),
      oneLine_memberLiterals members⟩

end

end Json

end FeastCalendar
