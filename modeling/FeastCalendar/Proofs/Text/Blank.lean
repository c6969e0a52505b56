import Mathlib.Data.List.Basic
import FeastCalendar.Text.Blank
import FeastCalendar.Text.Identifier

/-!
Words told from the blanks between them. A text that shows words, in any letters and with any
blanks between them and around, is cleaned and split into just these words.
-/

namespace FeastCalendar.Text

def IsPlain (word : String) : Prop :=
  word ≠ "" ∧ ∀ c ∈ word.toList, isIdentifierChar c = true

instance (word : String) : Decidable (IsPlain word) :=
  decidable_of_iff (word ≠ "" ∧ word.toList.all isIdentifierChar = true)
    (and_congr_right fun _ => List.all_eq_true)

/-- Characters that show words: each word in some case, and blanks between one and the next. -/
inductive Shows : List Char → List String → Prop where
  | last {shown : List Char} {word : String} :
      lowerChars shown = word.toList → Shows shown [word]
  | next {shown gap rest : List Char} {word : String} {words : List String} :
      lowerChars shown = word.toList → gap ≠ [] → (∀ c ∈ gap, isBlank c = true) →
      Shows rest words → Shows (shown ++ gap ++ rest) (word :: words)

/-- A text that renders words: blanks may stand around them, and full stops right after the last. -/
def Renders (text : String) (words : List String) : Prop :=
  ∃ before body stops after, text.toList = before ++ (body ++ stops) ++ after ∧
    (∀ c ∈ before, isBlank c = true) ∧ Shows body words ∧ (∀ c ∈ stops, c = '.') ∧
    ∀ c ∈ after, isBlank c = true

theorem not_isBlank_of_isIdentifierChar {c : Char} (own : isIdentifierChar c = true) :
    isBlank c = false := by
  simp only [isIdentifierChar, Bool.or_eq_true, Bool.and_eq_true, decide_eq_true_eq] at own
  simp [isBlank]
  omega

theorem lowerChar_of_isBlank {c : Char} (blank : isBlank c = true) : lowerChar c = [c] := by
  simp only [isBlank, Bool.or_eq_true, Bool.and_eq_true, decide_eq_true_eq, beq_iff_eq] at blank
  have upper : ¬(65 ≤ c.toNat ∧ c.toNat ≤ 90) := by omega
  have dotted : ¬c.toNat = 0x130 := by omega
  have kelvin : ¬c.toNat = 0x212A := by omega
  simp [lowerChar, upper, dotted, kelvin]

theorem lowerChars_append (front back : List Char) :
    lowerChars (front ++ back) = lowerChars front ++ lowerChars back := List.flatMap_append

theorem flatMap_of_kept {step : Char → List Char} {text : List Char}
    (kept : ∀ c ∈ text, step c = [c]) : text.flatMap step = text :=
  (List.flatMap_congr kept).trans (List.flatMap_singleton' text)

theorem lowerChars_of_fixed {text : List Char} (fixed : ∀ c ∈ text, lowerChar c = [c]) :
    lowerChars text = text := flatMap_of_kept fixed

theorem not_isBlank_of_lowerChars {shown : List Char} {word : String} (plain : IsPlain word)
    (lower : lowerChars shown = word.toList) : ∀ c ∈ shown, isBlank c = false := by
  intro c member
  by_contra blank
  have kept := lowerChar_of_isBlank (by simpa using blank)
  have inWord : c ∈ word.toList := by
    rw [← lower]
    exact List.mem_flatMap.mpr ⟨c, member, by rw [kept]; exact List.mem_singleton_self c⟩
  exact blank (not_isBlank_of_isIdentifierChar (plain.2 c inWord))

theorem ne_nil_of_lowerChars {shown : List Char} {word : String} (plain : IsPlain word)
    (lower : lowerChars shown = word.toList) : shown ≠ [] := by
  rintro rfl
  exact plain.1 (String.toList_eq_nil_iff.mp lower.symm)

theorem dropTail_append {drops : Char → Bool} {front tail : List Char}
    (all : ∀ c ∈ tail, drops c = true) (kept : ∀ c, front.getLast? = some c → drops c = false) :
    dropTail drops (front ++ tail) = front := by
  have reversed : ∀ c ∈ tail.reverse, drops c = true := by simpa using all
  rw [dropTail, List.reverse_append, List.dropWhile_append_of_pos reversed]
  cases shape : front.reverse with
  | nil => rw [List.dropWhile_nil, ← shape, List.reverse_reverse]
  | cons c rest =>
    have last : front.getLast? = some c := by rw [← List.head?_reverse, shape, List.head?_cons]
    rw [List.dropWhile_cons_of_neg (by simp [kept c last]), ← shape, List.reverse_reverse]

theorem trimBlanks_append {before body after : List Char}
    (blankBefore : ∀ c ∈ before, isBlank c = true)
    (first : ∀ c, body.head? = some c → isBlank c = false)
    (last : ∀ c, body.getLast? = some c → isBlank c = false) (filled : body ≠ [])
    (blankAfter : ∀ c ∈ after, isBlank c = true) :
    trimBlanks (before ++ body ++ after) = body := by
  obtain ⟨c, rest, rfl⟩ := List.exists_cons_of_ne_nil filled
  have solid : isBlank c = false := first c rfl
  rw [trimBlanks, List.append_assoc, List.dropWhile_append_of_pos blankBefore, List.cons_append,
    List.dropWhile_cons_of_neg (by simp [solid]), ← List.cons_append]
  exact dropTail_append blankAfter last

theorem squeezeFrom_solid {front : List Char} (solid : ∀ c ∈ front, isBlank c = false)
    (filled : front ≠ []) (inside : Bool) (rest : List Char) :
    squeezeFrom inside (front ++ rest) = front ++ squeezeFrom false rest := by
  induction front generalizing inside with
  | nil => exact absurd rfl filled
  | cons c front ih =>
    rw [List.forall_mem_cons] at solid
    rw [List.cons_append, squeezeFrom, if_neg (by simp [solid.1]), List.cons_append]
    cases front with
    | nil => rfl
    | cons d front => rw [ih solid.2 (List.cons_ne_nil d front)]

theorem squeezeFrom_blanks {gap : List Char} (blank : ∀ c ∈ gap, isBlank c = true)
    (rest : List Char) : squeezeFrom true (gap ++ rest) = squeezeFrom true rest := by
  induction gap with
  | nil => rfl
  | cons c gap ih =>
    rw [List.forall_mem_cons] at blank
    rw [List.cons_append, squeezeFrom, if_pos blank.1, if_pos rfl, ih blank.2]

theorem squeezeFrom_gap {gap : List Char} (blank : ∀ c ∈ gap, isBlank c = true) (filled : gap ≠ [])
    (rest : List Char) : squeezeFrom false (gap ++ rest) = ' ' :: squeezeFrom true rest := by
  obtain ⟨c, gap, rfl⟩ := List.exists_cons_of_ne_nil filled
  rw [List.forall_mem_cons] at blank
  rw [List.cons_append, squeezeFrom, if_pos blank.1, if_neg Bool.false_ne_true,
    squeezeFrom_blanks blank.2]

theorem toList_joinWith_cons (separator word : String) {words : List String} (more : words ≠ []) :
    (joinWith separator (word :: words)).toList =
      word.toList ++ separator.toList ++ (joinWith separator words).toList := by
  obtain ⟨next, words, rfl⟩ := List.exists_cons_of_ne_nil more
  rw [joinWith, String.toList_append, String.toList_append]
  exact fun empty => nomatch empty

theorem Shows.ne_nil {body : List Char} {words : List String} (shows : Shows body words) :
    words ≠ [] := by
  cases shows <;> exact List.cons_ne_nil _ _

theorem Shows.ends {body : List Char} {words : List String} (shows : Shows body words)
    (plain : ∀ word ∈ words, IsPlain word) :
    body ≠ [] ∧ (∀ c, body.head? = some c → isBlank c = false) ∧
      ∀ c, body.getLast? = some c → isBlank c = false := by
  induction shows with
  | @last shown word lower =>
    have own := plain word (List.mem_singleton_self word)
    have solid := not_isBlank_of_lowerChars own lower
    exact ⟨ne_nil_of_lowerChars own lower, fun c head => solid c (List.mem_of_head? head),
      fun c tail => solid c (List.mem_of_getLast? tail)⟩
  | @next shown gap rest word words lower filled blank shows ih =>
    obtain ⟨own, later⟩ := List.forall_mem_cons.mp plain
    have solid := not_isBlank_of_lowerChars own lower
    obtain ⟨c, others, rfl⟩ := List.exists_cons_of_ne_nil (ne_nil_of_lowerChars own lower)
    obtain ⟨restFilled, -, last⟩ := ih later
    refine ⟨by simp, ?_, ?_⟩
    · rintro d ⟨⟩
      exact solid c (List.mem_cons_self ..)
    · intro d tail
      rw [List.getLast?_append_of_ne_nil _ restFilled] at tail
      exact last d tail

theorem Shows.squeezed {body : List Char} {words : List String} (shows : Shows body words)
    (plain : ∀ word ∈ words, IsPlain word) {stops : List Char}
    (solid : ∀ c ∈ stops, isBlank c = false) (inside : Bool) :
    squeezeFrom inside (lowerChars body ++ stops) = (joinWith " " words).toList ++ stops := by
  induction shows generalizing inside with
  | @last shown word lower =>
    have own := plain word (List.mem_singleton_self word)
    have wordSolid : ∀ c ∈ word.toList, isBlank c = false :=
      fun c member => not_isBlank_of_isIdentifierChar (own.2 c member)
    have all : ∀ c ∈ word.toList ++ stops, isBlank c = false := by
      intro c member
      exact (List.mem_append.mp member).elim (wordSolid c) (solid c)
    have filled : word.toList ++ stops ≠ [] := by
      simpa using fun empty => absurd empty own.1
    have whole := squeezeFrom_solid all filled inside []
    rw [List.append_nil, squeezeFrom, List.append_nil] at whole
    rw [lower, whole, joinWith]
  | @next shown gap rest word words lower filled blank shows ih =>
    obtain ⟨own, later⟩ := List.forall_mem_cons.mp plain
    have wordSolid : ∀ c ∈ word.toList, isBlank c = false :=
      fun c member => not_isBlank_of_isIdentifierChar (own.2 c member)
    have wordFilled : word.toList ≠ [] := fun empty => own.1 (String.toList_eq_nil_iff.mp empty)
    have gapKept : lowerChars gap = gap :=
      lowerChars_of_fixed fun c member => lowerChar_of_isBlank (blank c member)
    rw [lowerChars_append, lowerChars_append, lower, gapKept, List.append_assoc, List.append_assoc,
      squeezeFrom_solid wordSolid wordFilled, squeezeFrom_gap blank filled, ih later,
      toList_joinWith_cons " " word shows.ne_nil]
    simp

theorem splitAt_of_not_mem {mark : Char} {text : List Char} (absent : mark ∉ text) :
    splitAt mark text = [text] := by
  induction text with
  | nil => rfl
  | cons c rest ih =>
    rw [List.mem_cons, not_or] at absent
    rw [splitAt, if_neg fun same => absent.1 same.symm, ih absent.2]

theorem splitAt_append {mark : Char} {front : List Char} (absent : mark ∉ front)
    (rest : List Char) : splitAt mark (front ++ mark :: rest) = front :: splitAt mark rest := by
  induction front with
  | nil => rw [List.nil_append, splitAt, if_pos rfl]
  | cons c front ih =>
    rw [List.mem_cons, not_or] at absent
    rw [List.cons_append, splitAt, if_neg fun same => absent.1 same.symm, ih absent.2]

theorem splitAt_joinWith {words : List String} (filled : words ≠ [])
    (solid : ∀ word ∈ words, ' ' ∉ word.toList) :
    splitAt ' ' (joinWith " " words).toList = words.map String.toList := by
  induction words with
  | nil => exact absurd rfl filled
  | cons word words ih =>
    obtain ⟨own, later⟩ := List.forall_mem_cons.mp solid
    cases words with
    | nil => rw [joinWith, splitAt_of_not_mem own, List.map_singleton]
    | cons next words =>
      have more := List.cons_ne_nil next words
      have blank : " ".toList = [' '] := rfl
      rw [toList_joinWith_cons " " word more, blank, List.append_assoc, List.singleton_append,
        splitAt_append own, ih more later, List.map_cons (l := next :: words)]

theorem isIdentifierChar_of_getLast?_joinWith {words : List String}
    (plain : ∀ word ∈ words, IsPlain word) {c : Char}
    (last : (joinWith " " words).toList.getLast? = some c) : isIdentifierChar c = true := by
  induction words with
  | nil => cases last
  | cons word words ih =>
    obtain ⟨own, later⟩ := List.forall_mem_cons.mp plain
    cases words with
    | nil => exact own.2 c (List.mem_of_getLast? last)
    | cons next words =>
      have filled : (joinWith " " (next :: words)).toList ≠ [] := by
        intro empty
        cases words with
        | nil =>
          have plainNext := later next (List.mem_singleton_self next)
          exact plainNext.1 (String.toList_eq_nil_iff.mp empty)
        | cons other words =>
          rw [toList_joinWith_cons " " next (List.cons_ne_nil other words)] at empty
          simp at empty
      rw [toList_joinWith_cons " " word (List.cons_ne_nil next words),
        List.getLast?_append_of_ne_nil _ filled] at last
      exact ih later last

/-- Cleaned and split, a text gives just the words that it renders. -/
theorem Renders.split {text : String} {words : List String} (renders : Renders text words)
    (plain : ∀ word ∈ words, IsPlain word) :
    splitAt ' ' (dropTail (· = '.') (squeeze (lowerChars (trimBlanks text.toList)))) =
      words.map String.toList := by
  obtain ⟨before, body, stops, after, shape, blankBefore, shows, dots, blankAfter⟩ := renders
  obtain ⟨filled, first, last⟩ := shows.ends plain
  have solid : ∀ c ∈ stops, isBlank c = false := by
    intro c member
    rw [dots c member]
    decide
  have stopsKept : lowerChars stops = stops := by
    apply lowerChars_of_fixed
    intro c member
    rw [dots c member]
    decide
  have trimmed : trimBlanks text.toList = body ++ stops := by
    rw [shape]
    apply trimBlanks_append blankBefore _ _ _ blankAfter
    · rw [List.head?_append_of_ne_nil _ filled]
      exact first
    · intro c ends
      by_cases bare : stops = []
      · rw [bare, List.append_nil] at ends
        exact last c ends
      · rw [List.getLast?_append_of_ne_nil _ bare] at ends
        exact solid c (List.mem_of_getLast? ends)
    · simp [filled]
  have dropped : dropTail (· = '.') ((joinWith " " words).toList ++ stops) =
      (joinWith " " words).toList := by
    apply dropTail_append
    · simpa using dots
    · intro c ends
      have own := isIdentifierChar_of_getLast?_joinWith plain ends
      by_contra dot
      simp only [Bool.not_eq_false, decide_eq_true_eq] at dot
      subst dot
      revert own
      decide
  rw [trimmed, lowerChars_append, stopsKept, squeeze, shows.squeezed plain solid, dropped]
  apply splitAt_joinWith shows.ne_nil
  intro word member blank
  have own := (plain word member).2 ' ' blank
  revert own
  decide

theorem lowerChar_of_isIdentifierChar {c : Char} (own : isIdentifierChar c = true) :
    lowerChar c = [c] := by
  simp only [isIdentifierChar, Bool.or_eq_true, Bool.and_eq_true, decide_eq_true_eq] at own
  have upper : ¬(65 ≤ c.toNat ∧ c.toNat ≤ 90) := by omega
  have dotted : ¬c.toNat = 0x130 := by omega
  have kelvin : ¬c.toNat = 0x212A := by omega
  simp [lowerChar, upper, dotted, kelvin]

theorem IsPlain.lowerChars_eq {word : String} (plain : IsPlain word) :
    lowerChars word.toList = word.toList :=
  lowerChars_of_fixed fun c member => lowerChar_of_isIdentifierChar (plain.2 c member)

theorem shows_joinWith {words : List String} (filled : words ≠ [])
    (plain : ∀ word ∈ words, IsPlain word) : Shows (joinWith " " words).toList words := by
  induction words with
  | nil => exact absurd rfl filled
  | cons word words ih =>
    obtain ⟨own, later⟩ := List.forall_mem_cons.mp plain
    cases words with
    | nil => exact .last own.lowerChars_eq
    | cons next words =>
      have more := List.cons_ne_nil next words
      rw [toList_joinWith_cons " " word more]
      have blank : ∀ c ∈ " ".toList, isBlank c = true := List.all_eq_true.mp rfl
      exact .next own.lowerChars_eq (List.cons_ne_nil _ _) blank (ih more later)

theorem renders_joinWith {words : List String} (filled : words ≠ [])
    (plain : ∀ word ∈ words, IsPlain word) : Renders (joinWith " " words) words :=
  ⟨[], _, [], [], by simp, nofun, shows_joinWith filled plain, nofun, nofun⟩

end FeastCalendar.Text
