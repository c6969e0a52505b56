import Mathlib.Data.List.Basic
import FeastCalendar.Text.Identifier

/-!
What is left of a text in its identifier: letters and digits parted by single underscores, at
neither end of it, and nothing at all of a text that shows no letter, digit or ampersand.
-/

namespace FeastCalendar.Text

variable {text : List Char}

theorem of_mem_identifierRuns {run : List Char} (member : run ∈ identifierRuns text) :
    run ≠ [] ∧ ∀ c ∈ run, isIdentifierChar c = true := by
  induction text generalizing run with
  | nil => cases member
  | cons c rest ih =>
    unfold identifierRuns at member
    split at member
    next own =>
      have lone : ∀ d ∈ [c], isIdentifierChar d = true := by simpa using own
      split at member
      next next others first runs shape =>
        rw [shape] at ih
        split at member
        · rcases List.mem_cons.mp member with rfl | later
          · exact ⟨List.cons_ne_nil _ _,
              List.forall_mem_cons.mpr ⟨own, (ih (List.mem_cons_self ..)).2⟩⟩
          · exact ih (List.mem_cons_of_mem _ later)
        · rcases List.mem_cons.mp member with rfl | later
          · exact ⟨List.cons_ne_nil _ _, lone⟩
          · exact ih later
      next =>
        rcases List.mem_cons.mp member with rfl | later
        · exact ⟨List.cons_ne_nil _ _, lone⟩
        · exact ih later
    next => exact ih member

theorem identifierRuns_eq_nil_iff :
    identifierRuns text = [] ↔ ∀ c ∈ text, isIdentifierChar c = false := by
  induction text with
  | nil => simp [identifierRuns]
  | cons c rest ih =>
    rw [List.forall_mem_cons]
    unfold identifierRuns
    split
    next own => split <;> (try split) <;> simp [own]
    next other => simp [ih, other]

theorem joinRuns_ne_nil {runs : List (List Char)} (filled : ∀ run ∈ runs, run ≠ [])
    (some : runs ≠ []) : joinRuns runs ≠ [] := by
  cases runs with
  | nil => exact absurd rfl some
  | cons run others =>
    have first := filled run (List.mem_cons_self ..)
    cases others <;> simp [joinRuns, first]

theorem getLast?_joinRuns {runs : List (List Char)} (filled : ∀ run ∈ runs, run ≠ []) {c : Char}
    (last : (joinRuns runs).getLast? = some c) : ∃ run ∈ runs, c ∈ run := by
  induction runs with
  | nil => cases last
  | cons run others ih =>
    cases others with
    | nil => exact ⟨run, List.mem_cons_self .., List.mem_of_getLast? last⟩
    | cons next others =>
      have later := (List.forall_mem_cons.mp filled).2
      have more := joinRuns_ne_nil later (List.cons_ne_nil next others)
      have apart : joinRuns (run :: next :: others) =
          run ++ ['_'] ++ joinRuns (next :: others) := by simp [joinRuns]
      rw [apart, List.getLast?_append_of_ne_nil _ more] at last
      obtain ⟨own, member, inside⟩ := ih later last
      exact ⟨own, List.mem_cons_of_mem _ member, inside⟩

/-- A text that shows nothing an identifier could keep: no ASCII letter or digit in any case, and no
ampersand. -/
def IsNameless (text : String) : Prop :=
  ∀ c ∈ lowerChars text.toList, c ≠ '&' ∧ isIdentifierChar c = false

instance (text : String) : Decidable (IsNameless text) :=
  decidable_of_iff
    ((lowerChars text.toList).all (fun c => c != '&' && !isIdentifierChar c) = true)
    (by simp [IsNameless])

theorem forall_mem_spellOut {c : Char} :
    (∀ d ∈ spellOut c, isIdentifierChar d = false) ↔ c ≠ '&' ∧ isIdentifierChar c = false := by
  have letter : isIdentifierChar 'a' = true := by decide
  unfold spellOut
  split
  next mark =>
    simp only [Bool.or_eq_true, decide_eq_true_eq] at mark
    have other : c ≠ '&' ∧ isIdentifierChar c = false := by
      rcases mark with rfl | rfl <;> decide
    simp [other]
  next =>
    split
    next same => simp [same, letter]
    next other => simp [other]

/-- The runs of a text in lower case, spelled out, are none just if it shows nothing to keep. -/
theorem identifierRuns_spellOut_eq_nil_iff :
    identifierRuns (text.flatMap spellOut) = [] ↔
      ∀ c ∈ text, c ≠ '&' ∧ isIdentifierChar c = false := by
  rw [identifierRuns_eq_nil_iff]
  simp only [List.mem_flatMap, forall_exists_index, and_imp]
  constructor
  · intro none c member
    exact forall_mem_spellOut.mp fun d inside => none d c member inside
  · intro nameless d c member inside
    exact forall_mem_spellOut.mpr (nameless c member) d inside

theorem identifier_eq_empty_iff_runs {text : String} :
    identifier text = "" ↔ identifierRuns ((lowerChars text.toList).flatMap spellOut) = [] := by
  rw [identifier, identifierChars, ← String.toList_eq_nil_iff, String.toList_ofList]
  refine ⟨fun empty => ?_, fun none => by rw [none]; rfl⟩
  by_contra some
  exact joinRuns_ne_nil (fun run member => (of_mem_identifierRuns member).1) some empty

theorem identifier_eq_empty_iff {text : String} : identifier text = "" ↔ IsNameless text :=
  identifier_eq_empty_iff_runs.trans identifierRuns_spellOut_eq_nil_iff

theorem isIdentifierChar_of_getLast?_identifier {text : String} {c : Char}
    (last : (identifier text).toList.getLast? = some c) : isIdentifierChar c = true := by
  rw [identifier, String.toList_ofList, identifierChars] at last
  obtain ⟨run, member, inside⟩ :=
    getLast?_joinRuns (fun run member => (of_mem_identifierRuns member).1) last
  exact (of_mem_identifierRuns member).2 c inside

end FeastCalendar.Text
