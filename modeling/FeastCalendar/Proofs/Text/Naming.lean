import FeastCalendar.Proofs.Text.Blank
import FeastCalendar.Proofs.Text.Identifier

/-!
What identifiers look like and what they do not depend on. An identifier is plain words with an
underscore between one and the next, or nothing at all, and it is its own identifier. It does not
depend on what the table of cases makes of letters outside ASCII, nor on how wide the gaps between
the words of a text are.
-/

namespace FeastCalendar.Text

section Runs

variable {text rest word gap run : List Char} {runs : List (List Char)} {b c d : Char}

theorem identifierRuns_cons_break (other : isIdentifierChar b = false) (text : List Char) :
    identifierRuns (b :: text) = identifierRuns text := by
  conv_lhs => unfold identifierRuns
  rw [if_neg (by simp [other])]

theorem identifierRuns_cons_last (own : isIdentifierChar c = true)
    (ends : ∀ d, text.head? = some d → isIdentifierChar d = false) :
    identifierRuns (c :: text) = [c] :: identifierRuns text := by
  conv_lhs => unfold identifierRuns
  rw [if_pos own]
  cases text with
  | nil => rfl
  | cons d rest =>
    have other := ends d rfl
    cases identifierRuns (d :: rest) with
    | nil => rfl
    | cons run runs => simp [other]

theorem identifierRuns_cons_cons (own : isIdentifierChar c = true) (next : isIdentifierChar d = true)
    (later : identifierRuns (d :: rest) = run :: runs) :
    identifierRuns (c :: d :: rest) = (c :: run) :: runs := by
  unfold identifierRuns
  rw [if_pos own, later]
  simp [next]

theorem exists_identifierRuns_cons (own : isIdentifierChar c = true) (rest : List Char) :
    ∃ run runs, identifierRuns (c :: rest) = run :: runs := by
  refine List.exists_cons_of_ne_nil fun none => ?_
  have other := identifierRuns_eq_nil_iff.mp none c (List.mem_cons_self ..)
  rw [own] at other
  cases other

/-- No run reaches over a character that none can hold. -/
theorem identifierRuns_append_break (other : isIdentifierChar b = false) (left right : List Char) :
    identifierRuns (left ++ b :: right) = identifierRuns left ++ identifierRuns right := by
  induction left with
  | nil => exact identifierRuns_cons_break other right
  | cons c left ih =>
    rw [List.cons_append]
    by_cases own : isIdentifierChar c = true
    · cases left with
      | nil =>
        rw [List.nil_append, identifierRuns_cons_last own (by simpa using other),
          identifierRuns_cons_break other, identifierRuns_cons_last own (by simp)]
        rfl
      | cons d left =>
        rw [List.cons_append] at ih ⊢
        by_cases next : isIdentifierChar d = true
        · obtain ⟨run, runs, later⟩ := exists_identifierRuns_cons next left
          rw [later, List.cons_append] at ih
          rw [identifierRuns_cons_cons own next later, identifierRuns_cons_cons own next ih]
          rfl
        · have ends : isIdentifierChar d = false := by simpa using next
          rw [identifierRuns_cons_last own (by simpa using ends), ih,
            identifierRuns_cons_last own (by simpa using ends)]
          rfl
    · have outside : isIdentifierChar c = false := by simpa using own
      rw [identifierRuns_cons_break outside, ih, identifierRuns_cons_break outside]

theorem identifierRuns_append_gap (filled : gap ≠ []) (other : ∀ b ∈ gap, isIdentifierChar b = false)
    (left right : List Char) :
    identifierRuns (left ++ (gap ++ right)) = identifierRuns left ++ identifierRuns right := by
  obtain ⟨b, gap, rfl⟩ := List.exists_cons_of_ne_nil filled
  obtain ⟨first, later⟩ := List.forall_mem_cons.mp other
  rw [List.cons_append, identifierRuns_append_break first]
  congr 1
  clear filled other
  induction gap with
  | nil => rfl
  | cons c gap ih =>
    rw [List.forall_mem_cons] at later
    rw [List.cons_append, identifierRuns_cons_break later.1, ih later.2]

theorem identifierRuns_word (filled : word ≠ []) (own : ∀ c ∈ word, isIdentifierChar c = true) :
    identifierRuns word = [word] := by
  induction word with
  | nil => exact absurd rfl filled
  | cons c word ih =>
    rw [List.forall_mem_cons] at own
    cases word with
    | nil => exact identifierRuns_cons_last own.1 (by simp)
    | cons d word =>
      exact identifierRuns_cons_cons own.1 (own.2 d (List.mem_cons_self ..))
        (ih (List.cons_ne_nil d word) own.2)

end Runs

def IsIdentifier (text : String) : Prop :=
  ∃ words, words ≠ [] ∧ (∀ word ∈ words, IsPlain word) ∧ text = joinWith "_" words

section Words

variable {text : String} {words : List String}

theorem toList_joinWith_map_ofList (runs : List (List Char)) :
    (joinWith "_" (runs.map String.ofList)).toList = joinRuns runs := by
  induction runs with
  | nil => rfl
  | cons run runs ih =>
    cases runs with
    | nil => exact String.toList_ofList
    | cons next runs =>
      have more : (next :: runs).map String.ofList ≠ [] := List.cons_ne_nil _ _
      rw [List.map_cons, toList_joinWith_cons "_" _ more, ih, String.toList_ofList, List.append_assoc]
      rfl

theorem identifier_eq_joinWith (text : String) :
    identifier text = joinWith "_" ((identifierRuns
      ((lowerChars text.toList).flatMap spellOut)).map String.ofList) := by
  rw [← String.toList_inj, toList_joinWith_map_ofList, identifier, String.toList_ofList]
  rfl

theorem isPlain_ofList {run text : List Char} (member : run ∈ identifierRuns text) :
    IsPlain (String.ofList run) := by
  obtain ⟨filled, own⟩ := of_mem_identifierRuns member
  refine ⟨fun empty => filled ?_, by rwa [String.toList_ofList]⟩
  rw [← String.toList_ofList (l := run), empty]
  rfl

theorem isIdentifier_identifier (filled : identifier text ≠ "") : IsIdentifier (identifier text) := by
  rw [Ne, identifier_eq_empty_iff_runs] at filled
  refine ⟨_, ?_, ?_, identifier_eq_joinWith text⟩
  · rwa [Ne, List.map_eq_nil_iff]
  · intro word member
    obtain ⟨run, own, rfl⟩ := List.mem_map.mp member
    exact isPlain_ofList own

theorem identifierRuns_joinWith (plain : ∀ word ∈ words, IsPlain word) :
    identifierRuns (joinWith "_" words).toList = words.map String.toList := by
  induction words with
  | nil => rfl
  | cons word words ih =>
    obtain ⟨own, later⟩ := List.forall_mem_cons.mp plain
    have lone : identifierRuns word.toList = [word.toList] :=
      identifierRuns_word (fun empty => own.1 (String.toList_eq_nil_iff.mp empty)) own.2
    cases words with
    | nil => exact lone
    | cons next words =>
      have mark : "_".toList = ['_'] := rfl
      rw [toList_joinWith_cons "_" word (List.cons_ne_nil next words), mark, List.append_assoc,
        List.singleton_append, identifierRuns_append_break (by decide), lone, ih later]
      rfl

theorem spellOut_eq_self {c : Char} (right : c ≠ '’') (straight : c ≠ '\'') (other : c ≠ '&') :
    spellOut c = [c] := by
  simp [spellOut, right, straight, other]

theorem spellOut_of_isIdentifierChar {c : Char} (own : isIdentifierChar c = true) :
    spellOut c = [c] := by
  apply spellOut_eq_self <;> (rintro rfl; revert own; decide)

theorem kept_of_mem_joinWith (plain : ∀ word ∈ words, IsPlain word) {c : Char}
    (member : c ∈ (joinWith "_" words).toList) : lowerChar c = [c] ∧ spellOut c = [c] := by
  induction words with
  | nil => cases member
  | cons word words ih =>
    obtain ⟨own, later⟩ := List.forall_mem_cons.mp plain
    have inWord : c ∈ word.toList → lowerChar c = [c] ∧ spellOut c = [c] := fun inside =>
      ⟨lowerChar_of_isIdentifierChar (own.2 c inside),
        spellOut_of_isIdentifierChar (own.2 c inside)⟩
    cases words with
    | nil => exact inWord member
    | cons next words =>
      rw [toList_joinWith_cons "_" word (List.cons_ne_nil next words), List.mem_append,
        List.mem_append] at member
      rcases member with (inside | mark) | further
      · exact inWord inside
      · obtain rfl := List.mem_singleton.mp mark
        decide
      · exact ih later further

theorem identifier_of_isIdentifier (shape : IsIdentifier text) : identifier text = text := by
  obtain ⟨words, -, plain, rfl⟩ := shape
  have lower : lowerChars (joinWith "_" words).toList = (joinWith "_" words).toList :=
    lowerChars_of_fixed fun c member => (kept_of_mem_joinWith plain member).1
  have spelled : (joinWith "_" words).toList.flatMap spellOut = (joinWith "_" words).toList :=
    flatMap_of_kept fun c member => (kept_of_mem_joinWith plain member).2
  rw [identifier_eq_joinWith, lower, spelled, identifierRuns_joinWith plain, List.map_map]
  congr 1
  exact (List.map_congr_left fun word _ => String.ofList_toList).trans (List.map_id _)

end Words

/-- A character outside ASCII that is no apostrophe and shows no ASCII letter in lower case. -/
def IsForeign (c : Char) : Prop :=
  128 ≤ c.toNat ∧ c ≠ '’' ∧ c.toNat ≠ 0x130 ∧ c.toNat ≠ 0x212A

instance (c : Char) : Decidable (IsForeign c) :=
  inferInstanceAs (Decidable (128 ≤ c.toNat ∧ c ≠ '’' ∧ c.toNat ≠ 0x130 ∧ c.toNat ≠ 0x212A))

/-- Lower case as any table of cases gives it: which foreign character another one turns into is left
open. -/
inductive LowersTo : List Char → List Char → Prop where
  | nil : LowersTo [] []
  | own {c : Char} {rest lowered : List Char} (later : LowersTo rest lowered) :
    LowersTo (c :: rest) (lowerChar c ++ lowered)
  | foreign {c d : Char} {rest lowered : List Char} (upper : IsForeign c) (lower : IsForeign d)
    (later : LowersTo rest lowered) : LowersTo (c :: rest) (d :: lowered)

def IsBreak (c : Char) : Prop :=
  c.isAlphanum = false ∧ c ≠ '’' ∧ c ≠ '\'' ∧ c ≠ '&'

instance (c : Char) : Decidable (IsBreak c) :=
  inferInstanceAs (Decidable (c.isAlphanum = false ∧ c ≠ '’' ∧ c ≠ '\'' ∧ c ≠ '&'))

inductive Spaced : List Char → List Char → Prop where
  | nil : Spaced [] []
  | keeps (c : Char) {text spaced : List Char} (later : Spaced text spaced) :
    Spaced (c :: text) (c :: spaced)
  | squeezes {run text spaced : List Char} (filled : run ≠ []) (parts : ∀ c ∈ run, IsBreak c)
    (later : Spaced text spaced) : Spaced (run ++ text) (' ' :: spaced)

section Lowering

variable {text lowered spaced : List Char} {b c d : Char}

theorem lowersTo_lowerChars (text : List Char) : LowersTo text (lowerChars text) := by
  induction text with
  | nil => exact .nil
  | cons c rest ih => exact .own ih

theorem IsForeign.kept (foreign : IsForeign c) :
    lowerChar c = [c] ∧ spellOut c = [c] ∧ isIdentifierChar c = false := by
  obtain ⟨beyond, quote, dotted, kelvin⟩ := foreign
  have upper : ¬(65 ≤ c.toNat ∧ c.toNat ≤ 90) := by omega
  refine ⟨by simp [lowerChar, upper, dotted, kelvin], spellOut_eq_self quote ?_ ?_, ?_⟩
  · rintro rfl
    revert beyond
    decide
  · rintro rfl
    revert beyond
    decide
  · simp [isIdentifierChar]
    omega

theorem toNat_ofNat_of_upper (upper : 65 ≤ c.toNat ∧ c.toNat ≤ 90) :
    (Char.ofNat (c.toNat + 32)).toNat = c.toNat + 32 := by
  have valid : (c.toNat + 32).isValidChar := Or.inl (by omega)
  rw [Char.ofNat, dif_pos valid]
  rfl

theorem lowerChar_of_mem_lowerChar (member : d ∈ lowerChar c) : lowerChar d = [d] := by
  unfold lowerChar at member
  simp only at member
  split at member
  next upper =>
    simp only [Bool.and_eq_true, decide_eq_true_eq] at upper
    have number := toNat_ofNat_of_upper upper
    obtain rfl := List.mem_singleton.mp member
    apply lowerChar_of_isIdentifierChar
    simp only [isIdentifierChar, number, Bool.or_eq_true, Bool.and_eq_true, decide_eq_true_eq]
    omega
  next upper =>
    split at member
    next =>
      rcases List.mem_cons.mp member with rfl | mark
      · decide
      · obtain rfl := List.mem_singleton.mp mark
        decide
    next dotted =>
      split at member
      next =>
        obtain rfl := List.mem_singleton.mp member
        decide
      next kelvin =>
        obtain rfl := List.mem_singleton.mp member
        simp [lowerChar, upper, dotted, kelvin]

theorem LowersTo.kept (lowers : LowersTo text lowered) : ∀ c ∈ lowered, lowerChar c = [c] := by
  induction lowers with
  | nil => exact nofun
  | own _ ih =>
    rw [List.forall_mem_append]
    exact ⟨fun d member => lowerChar_of_mem_lowerChar member, ih⟩
  | foreign _ lower _ ih => exact List.forall_mem_cons.mpr ⟨lower.kept.1, ih⟩

theorem isAlphanum_iff :
    c.isAlphanum = true ↔ (65 ≤ c.toNat ∧ c.toNat ≤ 90) ∨ isIdentifierChar c = true := by
  delta Char.isAlphanum Char.isAlpha Char.isUpper Char.isLower Char.isDigit
  simp [isIdentifierChar, UInt32.le_iff_toNat_le, or_assoc]

theorem isAlphanum_of_kept (kept : lowerChar c = [c]) : c.isAlphanum = isIdentifierChar c := by
  have small : ¬(65 ≤ c.toNat ∧ c.toNat ≤ 90) := by
    intro upper
    have number := toNat_ofNat_of_upper upper
    have same : Char.ofNat (c.toNat + 32) = c := by simpa [lowerChar, upper] using kept
    rw [same] at number
    omega
  rw [Bool.eq_iff_iff, isAlphanum_iff, or_iff_right small]

theorem IsBreak.kept (parts : IsBreak c) : spellOut c = [c] ∧ isIdentifierChar c = false := by
  obtain ⟨other, right, straight, ampersand⟩ := parts
  refine ⟨spellOut_eq_self right straight ampersand, ?_⟩
  rw [← Bool.not_eq_true] at other ⊢
  exact fun own => other (isAlphanum_iff.mpr (Or.inr own))

theorem identifierRuns_spellOut_append (spelled : spellOut b = [b])
    (other : isIdentifierChar b = false) (front rest : List Char) :
    identifierRuns ((front ++ b :: rest).flatMap spellOut) =
      identifierRuns (front.flatMap spellOut) ++ identifierRuns (rest.flatMap spellOut) := by
  rw [List.flatMap_append, List.flatMap_cons, spelled, List.singleton_append]
  exact identifierRuns_append_break other _ _

theorem LowersTo.runs_eq (lowers : LowersTo text lowered) (front : List Char) :
    identifierRuns ((front ++ lowered).flatMap spellOut) =
      identifierRuns ((front ++ lowerChars text).flatMap spellOut) := by
  -- A run can reach over the seam, so what has been read stays in front of what is left.
  induction lowers generalizing front with
  | nil => rfl
  | @own c rest lowered later ih =>
    have first : lowerChars (c :: rest) = lowerChar c ++ lowerChars rest := List.flatMap_cons
    rw [first, ← List.append_assoc, ← List.append_assoc]
    exact ih (front ++ lowerChar c)
  | @foreign c d rest lowered upper lower later ih =>
    have first : lowerChars (c :: rest) = c :: lowerChars rest := by
      rw [lowerChars, List.flatMap_cons, upper.kept.1]
      rfl
    rw [first, identifierRuns_spellOut_append lower.kept.2.1 lower.kept.2.2,
      identifierRuns_spellOut_append upper.kept.2.1 upper.kept.2.2]
    exact congrArg _ (ih [])

theorem Spaced.runs_eq (spaces : Spaced text spaced) (front : List Char) :
    identifierRuns ((front ++ spaced).flatMap spellOut) =
      identifierRuns ((front ++ text).flatMap spellOut) := by
  induction spaces generalizing front with
  | nil => rfl
  | @keeps c text spaced later ih =>
    rw [← List.singleton_append, ← List.append_assoc, ← List.singleton_append (l := text),
      ← List.append_assoc]
    exact ih (front ++ [c])
  | @squeezes run text spaced filled parts later ih =>
    have spelled : run.flatMap spellOut = run :=
      flatMap_of_kept fun c member => (parts c member).kept.1
    rw [identifierRuns_spellOut_append (by decide) (by decide), List.flatMap_append,
      List.flatMap_append, spelled,
      identifierRuns_append_gap filled fun c member => (parts c member).kept.2]
    exact congrArg _ (ih [])

theorem Spaced.mem (spaces : Spaced text spaced) (member : c ∈ spaced) : c = ' ' ∨ c ∈ text := by
  induction spaces with
  | nil => cases member
  | keeps d _ ih =>
    rcases List.mem_cons.mp member with rfl | later
    · exact Or.inr (List.mem_cons_self ..)
    · exact (ih later).imp_right (List.mem_cons_of_mem _)
  | squeezes _ _ _ ih =>
    rcases List.mem_cons.mp member with rfl | later
    · exact Or.inl rfl
    · exact (ih later).imp_right (List.mem_append_right _)

theorem identifier_congr {text other : String}
    (same : identifierRuns ((lowerChars text.toList).flatMap spellOut) =
      identifierRuns ((lowerChars other.toList).flatMap spellOut)) :
    identifier text = identifier other := by
  rw [identifier_eq_joinWith, same, ← identifier_eq_joinWith]

end Lowering

variable {text : String} {lowered spaced : List Char}

theorem identifier_eq_empty_iff_lowered (lowers : LowersTo text.toList lowered) :
    identifier text = "" ↔ ∀ c ∈ lowered, c.isAlphanum = false ∧ c ≠ '&' := by
  have same := lowers.runs_eq []
  rw [List.nil_append, List.nil_append] at same
  rw [identifier_eq_empty_iff_runs, ← same, identifierRuns_spellOut_eq_nil_iff]
  refine forall₂_congr fun c member => ?_
  rw [isAlphanum_of_kept (lowers.kept c member), and_comm]

theorem identifier_spaced (lowers : LowersTo text.toList lowered) (spaces : Spaced lowered spaced) :
    identifier (String.ofList spaced) = identifier text := by
  have kept : lowerChars spaced = spaced := by
    apply lowerChars_of_fixed
    intro c member
    rcases spaces.mem member with rfl | before
    · decide
    · exact lowers.kept c before
  apply identifier_congr
  rw [String.toList_ofList, kept]
  exact (spaces.runs_eq []).trans (lowers.runs_eq [])

/-- An identifier is empty or plain words parted by single underscores; it is empty just if the text
in lower case has no ASCII letter or digit and no ampersand. What has this form is its own
identifier. Nothing depends on the table of cases, nor on the width of gaps in the text in lower
case. -/
theorem identifier_canonical (text : String) :
    (identifier text = "" ∨ IsIdentifier (identifier text)) ∧
    (IsIdentifier text → identifier text = text) ∧
    identifier (identifier text) = identifier text ∧
    LowersTo text.toList (lowerChars text.toList) ∧
    ∀ lowered, LowersTo text.toList lowered →
      (identifier text = "" ↔ ∀ c ∈ lowered, c.isAlphanum = false ∧ c ≠ '&') ∧
      ∀ spaced, Spaced lowered spaced → identifier (String.ofList spaced) = identifier text := by
  have form : identifier text = "" ∨ IsIdentifier (identifier text) :=
    or_iff_not_imp_left.mpr isIdentifier_identifier
  refine ⟨form, identifier_of_isIdentifier, ?_, lowersTo_lowerChars _, ?_⟩
  · rcases form with empty | shape
    · rw [empty]
      rfl
    · exact identifier_of_isIdentifier shape
  · intro lowered lowers
    exact ⟨identifier_eq_empty_iff_lowered lowers, fun spaced spaces =>
      identifier_spaced lowers spaces⟩

/-- The accented letter and the dash are one gap and the dot of the capital I is another; the Kelvin
sign is a letter, and the ampersand behind an apostrophe is a word. -/
theorem identifier_canonical_kelvin :
    LowersTo "É—İ\u212A’&".toList ['é', '—', 'i', '\u0307', 'k', '’', '&'] ∧
      Spaced ['é', '—', 'i', '\u0307', 'k', '’', '&'] [' ', 'i', ' ', 'k', '’', '&'] ∧
      IsIdentifier "i_k_and" ∧ identifier "É—İ\u212A’&" = "i_k_and" ∧
      identifier (String.ofList [' ', 'i', ' ', 'k', '’', '&']) = identifier "É—İ\u212A’&" ∧
      identifier "i_k_and" = "i_k_and" := by
  have lowers : LowersTo ['É', '—', 'İ', '\u212A', '’', '&']
      ['é', '—', 'i', '\u0307', 'k', '’', '&'] :=
    .foreign (by decide) (by decide) (.own (.own (.own (.own (.own .nil)))))
  have accented : ∀ c ∈ ['é', '—'], IsBreak c :=
    List.forall_mem_cons.mpr ⟨by decide, List.forall_mem_singleton.mpr (by decide)⟩
  have dot : ∀ c ∈ ['\u0307'], IsBreak c := List.forall_mem_singleton.mpr (by decide)
  have spaces : Spaced ['é', '—', 'i', '\u0307', 'k', '’', '&'] [' ', 'i', ' ', 'k', '’', '&'] :=
    .squeezes (List.cons_ne_nil _ _) accented (.keeps 'i'
      (.squeezes (List.cons_ne_nil _ _) dot (.keeps 'k' (.keeps '’' (.keeps '&' .nil)))))
  have shape : IsIdentifier "i_k_and" := ⟨["i", "k", "and"], by decide, by decide, by decide⟩
  have found : identifier "É—İ\u212A’&" = "i_k_and" := by decide +kernel
  obtain ⟨-, -, -, -, apart⟩ := identifier_canonical "É—İ\u212A’&"
  obtain ⟨-, fixed, -⟩ := identifier_canonical "i_k_and"
  exact ⟨lowers, spaces, shape, found, (apart _ lowers).2 _ spaces, fixed shape⟩

end FeastCalendar.Text
