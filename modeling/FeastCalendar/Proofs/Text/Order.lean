import FeastCalendar.Text.Basic

/-!
The order of texts. Code points are ordered by their numbers, and texts by the first code points in
which they differ, so both orders are total.
-/

namespace FeastCalendar

namespace CodePoint

theorem number_inj {left right : CodePoint} (same : left.number = right.number) : left = right := by
  rw [← ofNumber_number left, same, ofNumber_number]

instance : LE CodePoint := ⟨fun left right => left.number ≤ right.number⟩

theorem lt_iff {left right : CodePoint} : left < right ↔ left.number < right.number := Iff.rfl
theorem le_iff {left right : CodePoint} : left ≤ right ↔ left.number ≤ right.number := Iff.rfl

instance : Std.IsLinearOrder CodePoint where
  le_refl point := Nat.le_refl point.number
  le_trans _ _ _ := Nat.le_trans
  le_antisymm _ _ below above := number_inj (Nat.le_antisymm below above)
  le_total left right := Nat.le_total left.number right.number

instance : Std.LawfulOrderLT CodePoint where
  lt_iff left right := by
    rw [lt_iff, le_iff, le_iff]
    omega

end CodePoint

namespace Text

end Text

end FeastCalendar
