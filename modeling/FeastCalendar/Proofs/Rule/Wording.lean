import Mathlib.Data.List.TakeWhile
import FeastCalendar.Proofs.Rule.Checked
import FeastCalendar.Proofs.Text.Blank
import FeastCalendar.Proofs.Text.Identifier
import FeastCalendar.Proofs.Text.Numeral
import FeastCalendar.Rule.Phrase

/-!
What a wording says, apart from how it is read. A grammar tells which words spell which wording, and
a wording means one rule, or none if it counts no days or names nothing.
-/

namespace FeastCalendar.Phrase
open Civil (SnapPolicy)
open Text (IsNameless digitLimit)

section Keys

variable {key introduction phrase : String}

def EndsNamed (key : String) : Prop :=
  ∃ c, key.toList.getLast? = some c ∧ Text.isIdentifierChar c = true

theorem EndsNamed.ne_empty (named : EndsNamed key) : key ≠ "" := by
  rintro rfl
  obtain ⟨c, last, -⟩ := named
  cases last

theorem endsNamed_identifier (filled : Text.identifier phrase ≠ "") :
    EndsNamed (Text.identifier phrase) := by
  cases last : (Text.identifier phrase).toList.getLast? with
  | none => exact absurd (String.toList_eq_nil_iff.mp (List.getLast?_eq_none_iff.mp last)) filled
  | some c => exact ⟨c, last, Text.isIdentifierChar_of_getLast?_identifier last⟩

theorem EndsNamed.dropIntroduction (named : EndsNamed key)
    (parted : introduction.toList.getLast? = some '_') :
    EndsNamed (dropIntroduction key introduction) := by
  unfold Phrase.dropIntroduction
  split
  next fits =>
    obtain ⟨c, last, own⟩ := named
    obtain ⟨rest, shape⟩ := List.isPrefixOf_iff_prefix.mp (Bool.and_eq_true_iff.mp fits).1
    rw [← shape] at last
    have more : rest ≠ [] := by
      rintro rfl
      rw [List.append_nil, parted] at last
      cases last
      revert own
      decide
    rw [List.getLast?_append_of_ne_nil _ more] at last
    refine ⟨c, ?_, own⟩
    rw [String.toList_ofList, ← shape, ← String.length_toList, List.drop_left, last]
  next => exact named

theorem EndsNamed.dropIntroductions (named : EndsNamed key) :
    EndsNamed (introductions.foldl Phrase.dropIntroduction key) := by
  have parted : ∀ introduction ∈ introductions, introduction.toList.getLast? = some '_' := by decide
  exact List.foldlRecOn introductions _ named fun key own introduction member =>
    own.dropIntroduction (parted introduction member)

theorem ne_empty_of_find?_aliases {other : String} (found : Keyed.find? aliases key = some other) :
    other ≠ "" := by
  have filled : ∀ entry ∈ aliases, entry.2 ≠ "" := by decide
  exact filled _ ((Keyed.find?_eq_some_iff (by decide)).mp found)

theorem anchorKey_eq_empty_iff : anchorKey phrase = "" ↔ IsNameless phrase := by
  rw [← Text.identifier_eq_empty_iff]
  constructor
  · intro empty
    by_contra filled
    have named := (endsNamed_identifier filled).dropIntroductions
    unfold anchorKey at empty
    simp only at empty
    cases found : Keyed.find? aliases
        (introductions.foldl dropIntroduction (Text.identifier phrase)) with
    | none =>
      rw [found, Option.getD_none] at empty
      exact named.ne_empty empty
    | some other =>
      rw [found, Option.getD_some] at empty
      exact ne_empty_of_find?_aliases found empty
  · intro empty
    rw [anchorKey, empty]
    decide

theorem ofString_anchorKey_eq_nil_iff : Text.ofString (anchorKey phrase) = [] ↔ IsNameless phrase :=
  Text.ofString_eq_nil.trans anchorKey_eq_empty_iff

end Keys

section Vocabulary

/-- The number that a word spells: in decimal digits of any script, no more than can be read, or as
a number word. -/
def IsNumber (word : String) (n : Nat) : Prop :=
  (word ≠ "" ∧ (∀ c ∈ word.toList, Text.isDigit c = true) ∧ word.toList.length ≤ digitLimit ∧
    Text.digitsValue word.toList = n) ∨
  (word, n) ∈ numberWords

def IsWeekday (word : String) (weekday : Weekday) : Prop :=
  Civil.weekdayNames[weekday.val.toNat]? = some word

/-- The day of a month that a word spells: one or two digits, with an ordinal ending or without. -/
def IsMonthDay (word : String) (day : Int) : Prop :=
  ∃ digits ending, word.toList = digits ++ String.toList ending ∧
    (∀ c ∈ digits, Text.isDigit c = true) ∧ (digits.length = 1 ∨ digits.length = 2) ∧
      ending ∈ ["", "st", "nd", "rd", "th"] ∧ Text.digitsValue digits = day

def articles : List (List String) := [[], ["the"]]

def dayWords : List String := ["day", "days"]

def feastWords : List (List String) := [["feast"], ["feastday"], ["feast", "day"]]

/-- Words in which no number of days has more digits than can be read. -/
def IsShort (words : List String) : Prop :=
  ∀ number days turn, [number, days, turn] <:+: words → turn ∈ ["before", "after"] →
    (∀ c ∈ number.toList, Text.isDigit c = true) → number.toList.length ≤ digitLimit

theorem isShort_of_length {words : List String}
    (short : ∀ word ∈ words, word.toList.length ≤ digitLimit) : IsShort words :=
  fun number _ _ inside _ _ => short number (inside.subset (List.mem_cons_self ..))

variable {word : String}

theorem not_digits_of_mem_numberWords {n : Nat} (listed : (word, n) ∈ numberWords) :
    (!word.isEmpty && word.toList.all Text.isDigit) = false := by
  have worded : ∀ entry ∈ numberWords,
      (!entry.1.isEmpty && entry.1.toList.all Text.isDigit) = false := by decide
  exact worded _ listed

theorem number?_of_digits (filled : word ≠ "") (own : ∀ c ∈ word.toList, Text.isDigit c = true) :
    number? word = some ((Text.boundedValue word.toList).mapError .numeral) := by
  have digits : (!word.isEmpty && word.toList.all Text.isDigit) = true := by
    simpa [filled] using own
  rw [number?, if_pos digits]

theorem number?_of_isNumber {n : Nat} (spelled : IsNumber word n) :
    number? word = some (.ok n) := by
  rcases spelled with ⟨filled, own, short, value⟩ | listed
  · rw [number?_of_digits filled own, Text.boundedValue_eq_ok.mpr ⟨short, value⟩]
    rfl
  · rw [number?, if_neg (by simp [not_digits_of_mem_numberWords listed]), Keyed.lookup_eq_find?,
      (Keyed.find?_eq_some_iff (by decide)).mpr listed]
    rfl

theorem isNumber_of_number? {attempt : Except Failure Nat}
    (short : (∀ c ∈ word.toList, Text.isDigit c = true) → word.toList.length ≤ digitLimit)
    (read : number? word = some attempt) : ∃ n, IsNumber word n ∧ attempt = .ok n := by
  unfold number? at read
  split at read
  next digits =>
    have all := Bool.and_eq_true_iff.mp digits
    have own : ∀ c ∈ word.toList, Text.isDigit c = true := by simpa using all.2
    cases read
    refine ⟨_, Or.inl ⟨by simpa using all.1, own, short own, rfl⟩, ?_⟩
    rw [Text.boundedValue_eq_ok.mpr ⟨short own, rfl⟩]
    rfl
  next worded =>
    rw [Keyed.lookup_eq_find?, Option.map_eq_some_iff] at read
    obtain ⟨n, found, rfl⟩ := read
    exact ⟨n, Or.inr ((Keyed.find?_eq_some_iff (by decide)).mp found), rfl⟩

theorem weekday?_eq_some {n : Int} :
    weekday? word = some n ↔ ∃ weekday, IsWeekday word weekday ∧ weekday.val = n := by
  unfold weekday? IsWeekday
  rw [Option.map_eq_some_iff]
  constructor
  · rintro ⟨i, found, rfl⟩
    obtain ⟨below, here, -⟩ := List.findIdx?_eq_some_iff_getElem.mp found
    have few : Civil.weekdayNames.length = 7 := rfl
    refine ⟨⟨i, by omega⟩, ?_, rfl⟩
    rw [Int.toNat_natCast, List.getElem?_eq_getElem below, of_decide_eq_true here]
  · rintro ⟨⟨weekday, range⟩, named, rfl⟩
    have own : ∀ i < 7, ∀ name ∈ Civil.weekdayNames[i]?,
        Civil.weekdayNames.findIdx? (· = name) = some i := by decide
    refine ⟨weekday.toNat, own _ (by omega) word named, ?_⟩
    exact Int.toNat_of_nonneg range.1

theorem monthDay?_eq_some {day : Int} : monthDay? word = some day ↔ IsMonthDay word day := by
  unfold monthDay? IsMonthDay
  simp only [Option.ite_none_right_eq_some, Option.some.injEq, Bool.and_eq_true, Bool.or_eq_true,
    decide_eq_true_eq, List.contains_iff_mem]
  constructor
  · rintro ⟨⟨few, ordinal⟩, rfl⟩
    refine ⟨_, _, ?_, fun c member => List.mem_takeWhile_imp member, few, ordinal, rfl⟩
    rw [String.toList_ofList, List.takeWhile_append_dropWhile]
  · rintro ⟨digits, ending, shape, all, few, ordinal, rfl⟩
    have kept : ∀ ending ∈ ["", "st", "nd", "rd", "th"],
        ending.toList.takeWhile Text.isDigit = [] ∧
          String.ofList (ending.toList.dropWhile Text.isDigit) = ending := by decide
    obtain ⟨none, whole⟩ := kept ending ordinal
    rw [shape, List.takeWhile_append_of_pos all, List.dropWhile_append_of_pos all, none, whole,
      List.append_nil]
    exact ⟨⟨few, ordinal⟩, rfl⟩

end Vocabulary

inductive Wording where
  | monthDay (month : Month) (day : MonthDay)
  | daysBeforeFeast (days : Nat)
  | relative (phrase : String) (offset : Int) (weekday : Option Weekday) (policy : SnapPolicy)
  | weekdayAfter (phrase : String) (weekday : Weekday) (count : Count)

inductive Spells : List String → Wording → Prop where
  | monthDay {name number : String} {month : Month} {day : MonthDay} :
      (name, month.val) ∈ months → IsMonthDay number day.val →
      Spells [name, number] (.monthDay month day)
  | daysBeforeFeast {number days : String} {n : Nat} {article feast : List String} :
      IsNumber number n → days ∈ dayWords → article ∈ articles → feast ∈ feastWords →
      Spells (number :: days :: "before" :: (article ++ feast)) (.daysBeforeFeast n)
  | weekdayDaysBefore {article : List String} {day number days : String} {weekday : Weekday}
      {n : Nat} {rest : List String} :
      article ∈ articles → IsWeekday day weekday → IsNumber number n → days ∈ dayWords →
      Text.joinWith " " rest ≠ "" →
      Spells (article ++ day :: number :: days :: "before" :: rest)
        (.relative (Text.joinWith " " rest) (-n) (some weekday) .onOrBefore)
  | daysBefore {number days : String} {n : Nat} {rest : List String} :
      IsNumber number n → days ∈ dayWords → Text.joinWith " " rest ≠ "" →
      (∀ article ∈ articles, ∀ feast ∈ feastWords, rest ≠ article ++ feast) →
      Spells (number :: days :: "before" :: rest)
        (.relative (Text.joinWith " " rest) (-n) none .onOrAfter)
  | daysAfter {number days : String} {n : Nat} {rest : List String} :
      IsNumber number n → days ∈ dayWords → Text.joinWith " " rest ≠ "" →
      Spells (number :: days :: "after" :: rest)
        (.relative (Text.joinWith " " rest) n none .onOrAfter)
  | firstWeekdayAfter {article : List String} {day : String} {weekday : Weekday}
      {rest : List String} :
      article ∈ articles → IsWeekday day weekday → Text.joinWith " " rest ≠ "" →
      Spells (article ++ day :: "after" :: rest)
        (.weekdayAfter (Text.joinWith " " rest) weekday (Count.of 1))
  | weekdayAfter {article : List String} {ordinal day : String} {count : Count}
      {weekday : Weekday} {rest : List String} :
      article ∈ articles → (ordinal, count.val) ∈ ordinalWords → IsWeekday day weekday →
      Text.joinWith " " rest ≠ "" →
      Spells (article ++ ordinal :: day :: "after" :: rest)
        (.weekdayAfter (Text.joinWith " " rest) weekday count)
  | weekdayBefore {article : List String} {day : String} {weekday : Weekday}
      {rest : List String} :
      article ∈ articles → IsWeekday day weekday → Text.joinWith " " rest ≠ "" →
      Spells (article ++ day :: "before" :: rest)
        (.relative (Text.joinWith " " rest) (-1) (some weekday) .onOrBefore)

def keyNamed (field phrase : String) : Except Invalid Key :=
  if nameless : IsNameless phrase then .error (.emptyKey field (.str []))
  else .ok ⟨anchorKey phrase, mt ofString_anchorKey_eq_nil_iff.mp nameless⟩

/-- The rule that a wording means. No span before a feast is without days, and an anchor has a
name. -/
def Wording.meant : Wording → Except Invalid Rule
  | monthDay month day => .ok (.fixed month day)
  | daysBeforeFeast days =>
    if positive : 1 ≤ (days : Int) then .ok (.beforeFeast ⟨days, positive⟩ none)
    else .error (.outsideRange "before_feast.days_before" 1 none days)
  | relative phrase offset weekday policy => do
    return .relative (← keyNamed "relative.anchor" phrase) offset weekday policy
  | weekdayAfter phrase weekday count => do
    return .nthWeekdayAfter (← keyNamed "nth_weekday_after.anchor" phrase) weekday count

def Wording.IsVoid : Wording → Prop
  | monthDay _ _ => False
  | daysBeforeFeast days => days = 0
  | relative phrase _ _ _ => IsNameless phrase
  | weekdayAfter phrase _ _ => IsNameless phrase

def Wording.read (wording : Wording) : Except Failure Rule := wording.meant.mapError Failure.invalid

section Meaning

variable {days : Nat} {phrase : String} {offset : Int}
  {weekday : Weekday} {policy : SnapPolicy}

theorem key_anchorKey (field phrase : String) :
    Checked.key field (.str (anchorKey phrase)) =
      (keyNamed field phrase).mapError Failure.invalid := by
  unfold Checked.key keyNamed
  simp only
  by_cases nameless : IsNameless phrase
  · have empty := ofString_anchorKey_eq_nil_iff.mpr nameless
    rw [dif_neg (not_not_intro empty), dif_pos nameless, empty]
    rfl
  · rw [dif_pos (mt ofString_anchorKey_eq_nil_iff.mp nameless), dif_neg nameless]
    rfl

theorem keyNamed_eq_ok_iff {field : String} {key : Key} :
    keyNamed field phrase = .ok key ↔ key.val = Text.ofString (anchorKey phrase) := by
  unfold keyNamed
  split
  next nameless =>
    rw [ofString_anchorKey_eq_nil_iff.mpr nameless]
    exact ⟨nofun, fun same => absurd same key.property⟩
  next => simp only [Except.ok.injEq, Subtype.ext_iff, eq_comm]

theorem exists_keyNamed_iff (field : String) :
    (∃ key, keyNamed field phrase = .ok key) ↔ ¬IsNameless phrase := by
  unfold keyNamed
  split
  next nameless => simp [nameless]
  next named => simp [named]

theorem Wording.exists_meant_iff (wording : Wording) :
    (∃ rule, wording.meant = .ok rule) ↔ ¬wording.IsVoid := by
  cases wording with
  | monthDay month day => exact ⟨fun _ => not_false, fun _ => ⟨_, rfl⟩⟩
  | daysBeforeFeast days =>
    by_cases positive : 1 ≤ (days : Int)
    · have some : days ≠ 0 := by omega
      simp [meant, IsVoid, positive, some]
    · have none : days = 0 := by omega
      simp [meant, IsVoid, none]
  | relative phrase offset weekday policy =>
    rw [IsVoid, ← exists_keyNamed_iff "relative.anchor"]
    simp only [meant, Attempt.bind_eq_ok, Attempt.pure_eq_ok]
    exact ⟨fun ⟨_, key, found, _⟩ => ⟨key, found⟩, fun ⟨key, found⟩ => ⟨_, key, found, rfl⟩⟩
  | weekdayAfter phrase weekday count =>
    rw [IsVoid, ← exists_keyNamed_iff "nth_weekday_after.anchor"]
    simp only [meant, Attempt.bind_eq_ok, Attempt.pure_eq_ok]
    exact ⟨fun ⟨_, key, found, _⟩ => ⟨key, found⟩, fun ⟨key, found⟩ => ⟨_, key, found, rfl⟩⟩

theorem fixed?_read (month : Month) (day : MonthDay) :
    Rule.fixed? (.int month.val) (.int day.val) = (Wording.monthDay month day).read :=
  Rule.fixed?_eq_ok.mpr ⟨month, rfl, day, rfl, rfl⟩

theorem beforeFeast?_read :
    Rule.beforeFeast? (.int days) .null = (Wording.daysBeforeFeast days).read := by
  by_cases positive : 1 ≤ (days : Int)
  · rw [Wording.read, Wording.meant, dif_pos positive]
    exact Rule.beforeFeast?_eq_ok.mpr ⟨⟨days, positive⟩, rfl, none, rfl, rfl⟩
  · -- The only number refused is none at all, and none at all can be written.
    obtain rfl : days = 0 := by omega
    rfl

theorem relative_read :
    relative (.str (anchorKey phrase)) offset none =
      (Wording.relative phrase offset none .onOrAfter).read := by
  unfold relative Rule.relative?
  rw [key_anchorKey, Wording.read, Wording.meant]
  cases keyNamed "relative.anchor" phrase <;> rfl

theorem relative_read_weekday :
    relative (.str (anchorKey phrase)) offset (some (weekday.val, policy)) =
      (Wording.relative phrase offset (some weekday) policy).read := by
  unfold relative Rule.relative?
  have weekdays : Checked.optional (Checked.between "relative.weekday" 0 6) (.int weekday.val) =
    .ok (some weekday) := Checked.optional_between_eq_ok.mpr rfl
  have policies : Checked.policy (.str policy.name) = .ok policy := Checked.policy_eq_ok.mpr rfl
  simp only [key_anchorKey, weekdays, policies]
  rw [Wording.read, Wording.meant]
  cases keyNamed "relative.anchor" phrase <;> rfl

theorem nthWeekdayAfter?_read (count : Count) :
    Rule.nthWeekdayAfter? (.str (anchorKey phrase)) (.int weekday.val) (.int count.val) =
      (Wording.weekdayAfter phrase weekday count).read := by
  unfold Rule.nthWeekdayAfter?
  have weekdays : Checked.between "nth_weekday_after.weekday" 0 6 (.int weekday.val) =
    .ok weekday := Checked.between_eq_ok.mpr rfl
  have counts : Checked.count "nth_weekday_after.n" (.int count.val) = .ok count :=
    Checked.count_eq_ok.mpr rfl
  simp only [key_anchorKey, weekdays, counts]
  rw [Wording.read, Wording.meant]
  cases keyNamed "nth_weekday_after.anchor" phrase <;> rfl

end Meaning

end FeastCalendar.Phrase
