import FeastCalendar.Fault
import FeastCalendar.Proofs.Text.Line

/-!
Which messages are told on one line. A message quotes the values that it tells of, but for a few
texts that it takes in as they are: the name of a field, the key of a missing anchor, the names
along a cycle, the words of a caller, the name of the entry. It is on one line if these are.
-/

namespace FeastCalendar
open Text (OneLine)

theorem Text.oneLine_shown_ofString {text : String} :
    OneLine (ofString text).shown ↔ OneLine text := by
  rw [oneLine_shown, ofString, ofChars, List.mem_map]
  simp [OneLine]

theorem Json.oneLine_typeName (value : Json) : OneLine value.typeName := by
  unfold typeName
  split <;> decide

theorem Civil.Date.oneLine_iso (date : Date) : OneLine date.iso := by
  have apart : OneLine "-" := by decide
  simp [iso, apart, Text.oneLine_zeroPadded]

theorem Text.NumeralFault.oneLine_message (fault : NumeralFault) : OneLine fault.message := by
  cases fault with
  | notANumber text =>
    apply Text.OneLine.append (by decide)
    rw [Text.oneLine_ofList]
    exact fun member => Text.newline_not_mem_quoteChars _ (List.mem_of_mem_take member)
  | tooLong digits =>
    have words : OneLine "Exceeds the limit (" ∧
        OneLine " digits) for integer string conversion: value has " ∧
        OneLine " digits; use sys.set_int_max_str_digits() to increase the limit" := by
      simp [OneLine]
    exact (((words.1.append (Text.oneLine_toString digitLimit)).append words.2.1).append
      (Text.oneLine_toString digits)).append words.2.2

theorem Civil.Refusal.oneLine_message (cause : Refusal) : OneLine cause.message := by
  cases cause with
  | year given =>
    have words : OneLine "year " ∧ OneLine " is out of range" := by simp [OneLine]
    exact (words.1.append (Text.oneLine_intText given)).append words.2
  | month => exact show OneLine "month must be in 1..12" by simp [OneLine]
  | day => exact show OneLine "day is out of range for month" by simp [OneLine]
  | numeral fault => exact fault.oneLine_message
  | tooFewParts count =>
    have words : OneLine "not enough values to unpack (expected 3, got " ∧ OneLine ")" := by
      simp [OneLine]
    exact (words.1.append (Text.oneLine_toString count)).append words.2
  | tooManyParts => exact show OneLine "too many values to unpack (expected 3)" by simp [OneLine]
  | beyondRange => exact show OneLine "date value out of range" by simp [OneLine]

theorem Rule.oneLine_describe (rule : Rule) : OneLine rule.describe := by
  cases rule with
  | fixed month day =>
    apply Text.oneLine_recordText (by decide)
    simp only [List.forall_mem_cons]
    exact ⟨⟨by decide, Text.oneLine_intText _⟩, ⟨by decide, Text.oneLine_intText _⟩,
      List.forall_mem_nil _⟩
  | anchor key =>
    apply Text.oneLine_recordText (by decide)
    simp only [List.forall_mem_cons]
    exact ⟨⟨by decide, Text.oneLine_quote _⟩, List.forall_mem_nil _⟩
  | relative key offset weekday policy =>
    apply Text.oneLine_recordText (by decide)
    simp only [List.forall_mem_cons]
    refine ⟨⟨by decide, Text.oneLine_quote _⟩, ⟨by decide, Text.oneLine_intText _⟩, ⟨by decide, ?_⟩,
      ⟨by decide, Text.oneLine_quote _⟩, List.forall_mem_nil _⟩
    cases weekday with
    | none => decide
    | some day => exact Text.oneLine_intText _
  | nthWeekdayAfter key weekday count =>
    apply Text.oneLine_recordText (by decide)
    simp only [List.forall_mem_cons]
    exact ⟨⟨by decide, Text.oneLine_quote _⟩, ⟨by decide, Text.oneLine_intText _⟩,
      ⟨by decide, Text.oneLine_intText _⟩, List.forall_mem_nil _⟩
  | beforeFeast days key =>
    apply Text.oneLine_recordText (by decide)
    simp only [List.forall_mem_cons]
    refine ⟨⟨by decide, Text.oneLine_intText _⟩, ⟨by decide, ?_⟩, List.forall_mem_nil _⟩
    cases key with
    | none => decide
    | some key => exact Text.oneLine_quote _
  | raw text =>
    apply Text.oneLine_recordText (by decide)
    simp only [List.forall_mem_cons]
    exact ⟨⟨by decide, text.val.oneLine_literal⟩, List.forall_mem_nil _⟩

theorem RuleSlot.oneLine_describe (slot : RuleSlot) : OneLine slot.describe := by
  cases slot with
  | rule placed => exact placed.oneLine_describe
  | stray value => exact value.oneLine_literal

namespace Invalid

/-- What the message takes in as it is. -/
def rawTexts : Invalid → List String
  | notInteger field _ => [field]
  | outsideRange field _ _ _ => [field]
  | emptyKey field _ => [field]
  | missingField kind field _ => [kind, field]
  | cycle path => path.map Text.shown
  | _ => []

theorem oneLine_message_iff (cause : Invalid) :
    OneLine cause.message ↔ ∀ text ∈ cause.rawTexts, OneLine text := by
  cases cause with
  | notInteger field value =>
    have words : OneLine " must be an integer, got " := by simp [OneLine]
    show OneLine (field ++ " must be an integer, got " ++ value.literal) ↔ _
    simp [rawTexts, words, value.oneLine_literal]
  | outsideRange field low high value =>
    have words : OneLine " must be " ∧ OneLine ".." ∧ OneLine ">= " ∧ OneLine ", got " := by
      simp [OneLine]
    cases high with
    | some high =>
      show OneLine (field ++ " must be " ++ (Text.intText low ++ ".." ++ Text.intText high) ++
        ", got " ++ Text.intText value) ↔ _
      simp [rawTexts, words, Text.oneLine_intText]
    | none =>
      show OneLine (field ++ " must be " ++ (">= " ++ Text.intText low) ++ ", got " ++
        Text.intText value) ↔ _
      simp [rawTexts, words, Text.oneLine_intText]
  | emptyKey field value =>
    have words : OneLine " must be a non-empty string, got " := by simp [OneLine]
    show OneLine (field ++ " must be a non-empty string, got " ++ value.literal) ↔ _
    simp [rawTexts, words, value.oneLine_literal]
  | missingField kind field object =>
    have words : OneLine " rule is missing '" ∧ OneLine "': " := by simp [OneLine]
    show OneLine (kind ++ " rule is missing '" ++ field ++ "': " ++ object.literal) ↔ _
    simp [rawTexts, words, object.oneLine_literal]
  | cycle path =>
    have words : OneLine "Anchor cycle: " := by simp [OneLine]
    show OneLine ("Anchor cycle: " ++ Text.joinWith " -> " (path.map Text.shown)) ↔ _
    rw [Text.oneLine_append, Text.oneLine_joinWith (by decide)]
    exact and_iff_right words
  | unknownPolicy value =>
    have words : OneLine
        "relative.weekday_policy must be one of ('on_or_after', 'on_or_before'), got " := by
      simp [OneLine]
    exact iff_of_true (words.append value.oneLine_literal) (List.forall_mem_nil _)
  | unknownWirePolicy value =>
    have words : OneLine "Unknown weekdayPolicy " := by simp [OneLine]
    exact iff_of_true (words.append value.oneLine_literal) (List.forall_mem_nil _)
  | unknownSnap value =>
    have words : OneLine "Unknown weekday policy " := by simp [OneLine]
    exact iff_of_true (words.append value.oneLine_literal) (List.forall_mem_nil _)
  | unknownRuleType value =>
    have words : OneLine "Unknown rule type " := by simp [OneLine]
    exact iff_of_true (words.append value.oneLine_literal) (List.forall_mem_nil _)
  | ruleNotObject value =>
    have words : OneLine "Rule must be a JSON object, got " := by simp [OneLine]
    exact iff_of_true (words.append value.oneLine_typeName) (List.forall_mem_nil _)
  | novenaNotObject value =>
    have words : OneLine "Novena entry must be a JSON object, got " := by simp [OneLine]
    exact iff_of_true (words.append value.oneLine_typeName) (List.forall_mem_nil _)
  | indexNotArray =>
    have words : OneLine "Novena index must be a JSON array" := by simp [OneLine]
    exact iff_of_true words (List.forall_mem_nil _)
  | yearOutOfRange =>
    have words : OneLine "year must be 1..9999" := by simp [OneLine]
    exact iff_of_true words (List.forall_mem_nil _)
  | noSuchDate cause =>
    have words : OneLine "No such date: " := by simp [OneLine]
    exact iff_of_true (words.append cause.oneLine_message) (List.forall_mem_nil _)
  | nothingToBorrow =>
    have words : OneLine
        "before_feast requires an anchor, or a feast rule of type 'anchor' to borrow one from" := by
      simp [OneLine]
    exact iff_of_true words (List.forall_mem_nil _)
  | duration value =>
    have words : OneLine "durationDays must be 1.." ∧ OneLine ", got " := by simp [OneLine]
    exact iff_of_true (((words.1.append (Text.oneLine_intText maxDuration)).append
      words.2).append value.oneLine_literal) (List.forall_mem_nil _)

end Invalid

namespace Cause

def rawTexts : Cause → List String
  | unknownAnchor key => [key.shown]
  | invalid cause => cause.rawTexts
  | stated _ text => [text]
  | _ => []

theorem oneLine_message_iff (cause : Cause) :
    OneLine cause.message ↔ ∀ text ∈ cause.rawTexts, OneLine text := by
  cases cause with
  | unknownAnchor key =>
    have words : OneLine "Unknown anchor '" ∧ OneLine "'" := by simp [OneLine]
    show OneLine ("Unknown anchor '" ++ key.shown ++ "'") ↔ _
    simp [rawTexts, words]
  | unreadText text =>
    have words : OneLine "Unparsed rule text cannot be resolved: " := by simp [OneLine]
    exact iff_of_true (words.append text.oneLine_literal) (List.forall_mem_nil _)
  | startAfterFeast start feast =>
    have words : OneLine "start after feast (" ∧ OneLine " > " ∧ OneLine ")" := by simp [OneLine]
    exact iff_of_true ((((words.1.append start.oneLine_iso).append words.2.1).append
      feast.oneLine_iso).append words.2.2) (List.forall_mem_nil _)
  | spanMismatch span duration =>
    have words : OneLine "inclusive span is " ∧ OneLine " days but durationDays=" := by
      simp [OneLine]
    exact iff_of_true (((words.1.append (Text.oneLine_intText span)).append words.2).append
      (Text.oneLine_intText duration)) (List.forall_mem_nil _)
  | invalid cause => exact cause.oneLine_message_iff
  | stated kind text =>
    show OneLine text ↔ _
    simp [rawTexts]

end Cause

namespace Fault

theorem oneLine_circumstances_iff (fault : Fault) :
    (∀ part ∈ fault.circumstances, OneLine part) ↔
      (∀ entry ∈ fault.entry, OneLine entry.shown) ∧
        ∀ year ∈ fault.year, OneLine year.display.shown := by
  have words : OneLine "entry=" ∧ OneLine "year=" ∧ OneLine "rule=" := by simp [OneLine]
  have described : ∀ rule ∈ fault.rule, OneLine rule.describe :=
    fun rule _ => rule.oneLine_describe
  cases fault with
  | mk cause entry year rule =>
    cases entry <;> cases year <;> cases rule <;>
      simp [circumstances, words, RuleSlot.oneLine_describe]

/-- A message is on one line if what it takes in as it is is, the rule apart, which it quotes. -/
theorem oneLine_message (fault : Fault) :
    OneLine fault.message ↔ OneLine fault.cause.message ∧
      (∀ entry ∈ fault.entry, OneLine entry.shown) ∧
        ∀ year ∈ fault.year, OneLine year.display.shown := by
  rw [← oneLine_circumstances_iff, message]
  split
  next none => simp [none, bareMessage]
  next parts some =>
    have words : OneLine " (" ∧ OneLine ")" := by simp [OneLine]
    rw [Text.oneLine_append, Text.oneLine_append, Text.oneLine_append,
      Text.oneLine_joinWith (by decide)]
    simp [words, bareMessage]

end Fault

end FeastCalendar
