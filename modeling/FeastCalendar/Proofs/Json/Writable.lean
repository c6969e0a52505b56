import FeastCalendar.Fault
import FeastCalendar.Proofs.Text.Numeral

/-!
Values that can be written: those in which no integer has more digits than the limit. What such a
value is made of can be written as well.
-/

namespace FeastCalendar

theorem Text.isWritable_iff {n : Int} :
    isWritable n = true ↔ (natDigits n.natAbs).length ≤ digitLimit := decide_eq_true_iff

theorem Text.isWritable_pow {k : Nat} : isWritable (10 ^ k : Nat) = true ↔ k < digitLimit := by
  rw [isWritable_iff, Int.natAbs_natCast, natDigits_pow, List.length_cons, List.length_replicate,
    Nat.succ_le_iff]

namespace Json

variable {value own : Json} {items : List Json} {members : Keyed Text Json} {name : Text}

theorem isWritable_arr :
    (arr items).isWritable = true ↔ ∀ item ∈ items, item.isWritable = true := by
  rw [isWritable]
  induction items with
  | nil => simp [areWritable]
  | cons item items ih => simp [areWritable, ih]

theorem isWritable_obj :
    (obj members).isWritable = true ↔ ∀ entry ∈ members, entry.2.isWritable = true := by
  rw [isWritable]
  induction members with
  | nil => simp [areMembersWritable]
  | cons entry members ih => simp [areMembersWritable, ih]

theorem isWritable_of_member? (writable : value.isWritable = true)
    (found : value.member? name = some own) : own.isWritable = true := by
  cases value with
  | obj members => exact isWritable_obj.mp writable _ (Keyed.mem_of_find? found)
  | _ => cases found

theorem isWritable_getD {spare : Json} (writable : value.isWritable = true)
    (spared : spare.isWritable = true) (name : Text) :
    ((value.member? name).getD spare).isWritable = true := by
  cases found : value.member? name with
  | none => exact spared
  | some own => exact isWritable_of_member? writable found

@[simp] theorem written_str (text : Text) : (str text).written = .ok text := rfl

theorem written_eq_ok {text : Text} :
    value.written = .ok text ↔ value.isWritable = true ∧ value.display = text := by
  unfold written
  cases value.isWritable <;> simp

theorem written_eq_error {failure : Failure} :
    value.written = .error failure ↔ value.isWritable = false ∧ failure = .unwritable := by
  unfold written
  cases value.isWritable <;> simp [eq_comm]

end Json

end FeastCalendar
