import FeastCalendar.Proofs.Rule.Wording

/-!
How texts are read. Words that spell a wording are read as this wording and no other, though one
shape is tried after another; words that spell none are the name of a known anchor or are not
understood.
-/

namespace FeastCalendar.Phrase
open Attempt (FailsOnly)
open Text (IsNameless)

section Reading

variable {word : String} {words rest : List String} {attempt : Except Failure Rule}
  {wording : Wording}

theorem anchorOf?_eq_some {anchor : Json} : anchorOf? rest = some anchor ↔
    Text.joinWith " " rest ≠ "" ∧ anchor = .str (anchorKey (Text.joinWith " " rest)) := by
  unfold anchorOf?
  simp only
  split
  next empty => simp [String.isEmpty_iff.mp empty]
  next filled =>
    have some : Text.joinWith " " rest ≠ "" := fun empty => filled (String.isEmpty_iff.mpr empty)
    simp only [Option.some.injEq, ne_eq, some, not_false_eq_true, true_and, eq_comm]

theorem isDayWord_iff : isDayWord word = true ↔ word ∈ dayWords := by
  simp [isDayWord, dayWords]

theorem exists_article (words : List String) :
    ∃ article ∈ articles, words = article ++ dropArticle words := by
  unfold dropArticle
  split
  · exact ⟨["the"], by decide, rfl⟩
  · exact ⟨[], by decide, rfl⟩

theorem dropArticle_cons (other : word ≠ "the") : dropArticle (word :: rest) = word :: rest := by
  simp [dropArticle, other]

theorem dropArticle_append {article : List String} (listed : article ∈ articles)
    (other : word ≠ "the") : dropArticle (article ++ word :: rest) = word :: rest := by
  simp only [articles, List.mem_cons, List.not_mem_nil, or_false] at listed
  rcases listed with rfl | rfl
  · exact dropArticle_cons other
  · rfl

theorem contains_dropArticle_iff :
    [["feast"], ["feastday"], ["feast", "day"]].contains (dropArticle rest) = true ↔
      ∃ article ∈ articles, ∃ feast ∈ feastWords, rest = article ++ feast := by
  rw [List.contains_iff_mem]
  constructor
  · intro member
    obtain ⟨article, listed, shape⟩ := exists_article rest
    exact ⟨article, listed, _, member, shape⟩
  · rintro ⟨article, listed, feast, member, rfl⟩
    have all : ∀ article ∈ articles, ∀ feast ∈ feastWords,
        dropArticle (article ++ feast) ∈ feastWords := by decide
    exact all article listed feast member

theorem spells_of_beforeFeast? (short : IsShort words)
    (fits : beforeFeast? words = some attempt) :
    ∃ wording, Spells words wording ∧ attempt = wording.read := by
  unfold beforeFeast? at fits
  split at fits
  next number days rest =>
    simp only [Option.bind_eq_bind, Option.bind_eq_some_iff, Option.ite_none_right_eq_some,
      Option.some.injEq, Bool.and_eq_true, isDayWord_iff, contains_dropArticle_iff] at fits
    obtain ⟨count, counted, ⟨dayWord, article, listed, feast, member, rfl⟩, rfl⟩ := fits
    obtain ⟨n, spelled, rfl⟩ :=
      isNumber_of_number? (short number days "before" ⟨[], _, rfl⟩ (by decide)) counted
    exact ⟨_, .daysBeforeFeast spelled dayWord listed member, beforeFeast?_read⟩
  next => cases fits

theorem spells_of_fixed? (fits : fixed? words = some attempt) :
    ∃ wording, Spells words wording ∧ attempt = wording.read := by
  unfold fixed? at fits
  split at fits
  next name number =>
    simp only [Option.bind_eq_bind, Option.bind_eq_some_iff, Option.ite_none_right_eq_some,
      Option.some.injEq, Bool.and_eq_true, decide_eq_true_eq, monthDay?_eq_some,
      Keyed.lookup_eq_find?] at fits
    obtain ⟨month, found, day, spelled, range, rfl⟩ := fits
    have listed := (Keyed.find?_eq_some_iff (by decide)).mp found
    have counted : ∀ entry ∈ months, 1 ≤ entry.2 ∧ entry.2 ≤ 12 := by decide
    exact ⟨.monthDay ⟨month, counted _ listed⟩ ⟨day, range⟩, .monthDay listed spelled,
      fixed?_read ⟨month, counted _ listed⟩ ⟨day, range⟩⟩
  next => cases fits

theorem spells_of_weekdayDaysBefore? (short : IsShort words)
    (fits : weekdayDaysBefore? words = some attempt) :
    ∃ wording, Spells words wording ∧ attempt = wording.read := by
  obtain ⟨article, listed, shape⟩ := exists_article words
  unfold weekdayDaysBefore? at fits
  split at fits
  next day number days rest same =>
    rw [same] at shape
    subst shape
    simp only [Option.bind_eq_bind, Option.bind_eq_some_iff, Option.ite_none_right_eq_some,
      Option.some.injEq, isDayWord_iff, weekday?_eq_some, anchorOf?_eq_some] at fits
    obtain ⟨_, ⟨weekday, named, rfl⟩, count, counted, _, ⟨filled, rfl⟩, dayWord, rfl⟩ := fits
    have inside : [number, days, "before"] <:+:
        article ++ day :: number :: days :: "before" :: rest := ⟨article ++ [day], rest, by simp⟩
    obtain ⟨n, spelled, rfl⟩ :=
      isNumber_of_number? (short number days "before" inside (by decide)) counted
    refine ⟨_, .weekdayDaysBefore listed named spelled dayWord filled, ?_⟩
    rw [Attempt.ok_bind, relative_read_weekday]
  next => cases fits

theorem spells_of_daysBefore? (short : IsShort words)
    (never : beforeFeast? words = none) (fits : daysBefore? words = some attempt) :
    ∃ wording, Spells words wording ∧ attempt = wording.read := by
  unfold daysBefore? at fits
  split at fits
  next number days rest =>
    simp only [Option.bind_eq_bind, Option.bind_eq_some_iff, Option.ite_none_right_eq_some,
      Option.some.injEq, isDayWord_iff, anchorOf?_eq_some] at fits
    obtain ⟨count, counted, _, ⟨filled, rfl⟩, dayWord, rfl⟩ := fits
    obtain ⟨n, spelled, rfl⟩ :=
      isNumber_of_number? (short number days "before" ⟨[], _, rfl⟩ (by decide)) counted
    refine ⟨_, .daysBefore spelled dayWord filled ?_, by rw [Attempt.ok_bind, relative_read]⟩
    -- Days before a feast would have fitted the shape that is tried before this one.
    intro article listed feast member shape
    have feasts := contains_dropArticle_iff.mpr ⟨article, listed, feast, member, shape⟩
    have own := isDayWord_iff.mpr dayWord
    simp only [beforeFeast?, counted, own, feasts, Option.bind_eq_bind, Option.bind_some,
      Bool.and_self, if_true] at never
    cases never
  next => cases fits

theorem spells_of_daysAfter? (short : IsShort words)
    (fits : daysAfter? words = some attempt) :
    ∃ wording, Spells words wording ∧ attempt = wording.read := by
  unfold daysAfter? at fits
  split at fits
  next number days rest =>
    simp only [Option.bind_eq_bind, Option.bind_eq_some_iff, Option.ite_none_right_eq_some,
      Option.some.injEq, isDayWord_iff, anchorOf?_eq_some] at fits
    obtain ⟨count, counted, _, ⟨filled, rfl⟩, dayWord, rfl⟩ := fits
    obtain ⟨n, spelled, rfl⟩ :=
      isNumber_of_number? (short number days "after" ⟨[], _, rfl⟩ (by decide)) counted
    refine ⟨_, .daysAfter spelled dayWord filled, ?_⟩
    rw [Attempt.ok_bind, relative_read]
  next => cases fits

theorem spells_of_weekdayBefore? (fits : weekdayBefore? words = some attempt) :
    ∃ wording, Spells words wording ∧ attempt = wording.read := by
  obtain ⟨article, listed, shape⟩ := exists_article words
  unfold weekdayBefore? at fits
  split at fits
  next day rest same =>
    rw [same] at shape
    subst shape
    simp only [Option.bind_eq_bind, Option.bind_eq_some_iff, Option.some.injEq, weekday?_eq_some,
      anchorOf?_eq_some] at fits
    obtain ⟨_, ⟨weekday, named, rfl⟩, _, ⟨filled, rfl⟩, rfl⟩ := fits
    exact ⟨_, .weekdayBefore listed named filled, relative_read_weekday⟩
  next => cases fits

theorem spells_of_weekdayAfter? (fits : weekdayAfter? words = some attempt) :
    ∃ wording, Spells words wording ∧ attempt = wording.read := by
  obtain ⟨article, listed, shape⟩ := exists_article words
  unfold weekdayAfter? at fits
  cases opened : dropArticle words with
  | nil =>
    rw [opened] at fits
    cases fits
  | cons word others =>
    rw [opened] at fits shape
    subst shape
    simp only at fits
    cases found : ordinalWords.lookup word with
    | some count =>
      rw [found] at fits
      simp only at fits
      rw [Keyed.lookup_eq_find?, Keyed.find?_eq_some_iff (by decide)] at found
      have positive : ∀ entry ∈ ordinalWords, 1 ≤ entry.2 := by decide
      obtain ⟨n, rfl⟩ : ∃ n : Count, n.val = count := ⟨⟨count, positive _ found⟩, rfl⟩
      split at fits
      next day rest same =>
        simp only [Option.bind_eq_bind, Option.bind_eq_some_iff, Option.some.injEq,
          weekday?_eq_some, anchorOf?_eq_some] at fits
        obtain ⟨_, ⟨weekday, named, rfl⟩, _, ⟨filled, rfl⟩, rfl⟩ := fits
        exact ⟨_, .weekdayAfter listed found named filled, nthWeekdayAfter?_read n⟩
      next => cases fits
    | none =>
      rw [found] at fits
      simp only at fits
      split at fits
      next day rest same =>
        obtain ⟨rfl, rfl⟩ := List.cons.inj same
        simp only [Option.bind_eq_bind, Option.bind_eq_some_iff, Option.some.injEq,
          weekday?_eq_some, anchorOf?_eq_some] at fits
        obtain ⟨_, ⟨weekday, named, rfl⟩, _, ⟨filled, rfl⟩, rfl⟩ := fits
        exact ⟨_, .firstWeekdayAfter listed named filled, nthWeekdayAfter?_read (Count.of 1)⟩
      next => cases fits

variable {article : List String} {first next : String}

theorem spans_eq_none (listed : article ∈ articles) (other : number? first = none)
    (rest : List String) :
    beforeFeast? (article ++ first :: rest) = none ∧ daysBefore? (article ++ first :: rest) = none ∧
      daysAfter? (article ++ first :: rest) = none := by
  have never : number? "the" = none := by decide
  simp only [articles, List.mem_cons, List.not_mem_nil, or_false] at listed
  unfold beforeFeast? daysBefore? daysAfter?
  rcases listed with rfl | rfl <;> refine ⟨?_, ?_, ?_⟩ <;> split <;> simp_all

theorem fixed?_eq_none (many : 2 < words.length) : fixed? words = none := by
  unfold fixed?
  split
  next => cases many.false
  next => rfl

theorem length_pos_of_joinWith (filled : Text.joinWith " " rest ≠ "") : 0 < rest.length := by
  apply List.length_pos_iff.mpr
  rintro rfl
  exact filled rfl

theorem weekdayDaysBefore?_eq_none (listed : article ∈ articles) (plain : first ≠ "the")
    (other : weekday? first = none ∨ number? next = none) :
    weekdayDaysBefore? (article ++ first :: next :: rest) = none := by
  rw [weekdayDaysBefore?, dropArticle_append listed plain]
  split
  next shape =>
    cases shape
    rcases other with other | other <;> simp [other]
  next => rfl

theorem number?_of_isWeekday {weekday : Weekday} (named : IsWeekday word weekday) :
    number? word = none ∧ word ≠ "the" ∧ ordinalWords.lookup word = none := by
  have all : ∀ name ∈ Civil.weekdayNames,
      number? name = none ∧ name ≠ "the" ∧ ordinalWords.lookup name = none := by decide
  exact all word (List.mem_of_getElem? named)

theorem number?_of_ordinal {count : Int} (listed : (word, count) ∈ ordinalWords) :
    number? word = none ∧ word ≠ "the" ∧ weekday? word = none := by
  have all : ∀ entry ∈ ordinalWords,
      number? entry.1 = none ∧ entry.1 ≠ "the" ∧ weekday? entry.1 = none := by decide
  exact all _ listed

theorem of_number?_eq_some {counted : Except Failure Nat} (number : number? word = some counted) :
    word ≠ "the" ∧ weekday? word = none := by
  constructor
  · rintro rfl
    have never : number? "the" = none := by decide
    rw [never] at number
    cases number
  · by_contra some
    obtain ⟨n, found⟩ := Option.ne_none_iff_exists'.mp some
    obtain ⟨weekday, named, -⟩ := weekday?_eq_some.mp found
    rw [(number?_of_isWeekday named).1] at number
    cases number

section Shapes

variable {name number days day ordinal : String} {n : Nat} {month : Month} {weekday : Weekday}
  {count : Count}

theorem fixed?_of_spelled {monthDay : MonthDay} (listed : (name, month.val) ∈ months)
    (own : IsMonthDay number monthDay.val) :
    fixed? [name, number] = some (Wording.monthDay month monthDay).read := by
  have found : months.lookup name = some month.val := by
    rw [Keyed.lookup_eq_find?, Keyed.find?_eq_some_iff (by decide)]
    exact listed
  simp [fixed?, found, monthDay?_eq_some.mpr own, monthDay.property, fixed?_read]

theorem beforeFeast?_of_feast (counted : number? number = some (.ok n)) (dayWord : days ∈ dayWords)
    (feast : ∃ article ∈ articles, ∃ feast ∈ feastWords, rest = article ++ feast) :
    beforeFeast? (number :: days :: "before" :: rest) =
      some (Wording.daysBeforeFeast n).read := by
  simp only [beforeFeast?, counted, isDayWord_iff.mpr dayWord, contains_dropArticle_iff.mpr feast,
    Option.bind_eq_bind, Option.bind_some, Bool.and_self, if_true, Attempt.ok_bind,
    beforeFeast?_read]

theorem beforeFeast?_of_other (counted : number? number = some (.ok n))
    (other : ¬∃ article ∈ articles, ∃ feast ∈ feastWords, rest = article ++ feast) :
    beforeFeast? (number :: days :: "before" :: rest) = none := by
  simp only [beforeFeast?, counted, mt contains_dropArticle_iff.mp other, Option.bind_eq_bind,
    Option.bind_some, Bool.and_false, Bool.false_eq_true, if_false]

variable (filled : Text.joinWith " " rest ≠ "")
include filled

theorem weekdayDaysBefore?_of_spelled (listed : article ∈ articles) (named : IsWeekday day weekday)
    (counted : number? number = some (.ok n)) (dayWord : days ∈ dayWords) :
    weekdayDaysBefore? (article ++ day :: number :: days :: "before" :: rest) =
      some (Wording.relative (Text.joinWith " " rest) (-n) (some weekday) .onOrBefore).read := by
  obtain ⟨-, plain, -⟩ := number?_of_isWeekday named
  simp only [weekdayDaysBefore?, dropArticle_append listed plain,
    weekday?_eq_some.mpr ⟨weekday, named, rfl⟩, counted, anchorOf?_eq_some.mpr ⟨filled, rfl⟩,
    isDayWord_iff.mpr dayWord, Option.bind_eq_bind, Option.bind_some, if_true, Attempt.ok_bind,
    relative_read_weekday]

theorem daysBefore?_of_spelled (counted : number? number = some (.ok n))
    (dayWord : days ∈ dayWords) :
    daysBefore? (number :: days :: "before" :: rest) =
      some (Wording.relative (Text.joinWith " " rest) (-n) none .onOrAfter).read := by
  simp only [daysBefore?, counted, isDayWord_iff.mpr dayWord, anchorOf?_eq_some.mpr ⟨filled, rfl⟩,
    Option.bind_eq_bind, Option.bind_some, if_true, Attempt.ok_bind, relative_read]

theorem daysAfter?_of_spelled (counted : number? number = some (.ok n))
    (dayWord : days ∈ dayWords) :
    daysAfter? (number :: days :: "after" :: rest) =
      some (Wording.relative (Text.joinWith " " rest) n none .onOrAfter).read := by
  simp only [daysAfter?, counted, isDayWord_iff.mpr dayWord, anchorOf?_eq_some.mpr ⟨filled, rfl⟩,
    Option.bind_eq_bind, Option.bind_some, if_true, Attempt.ok_bind, relative_read]

theorem weekdayAfter?_of_first (listed : article ∈ articles) (named : IsWeekday day weekday) :
    weekdayAfter? (article ++ day :: "after" :: rest) =
      some (Wording.weekdayAfter (Text.joinWith " " rest) weekday (Count.of 1)).read := by
  obtain ⟨-, plain, noOrdinal⟩ := number?_of_isWeekday named
  simp only [weekdayAfter?, dropArticle_append listed plain, noOrdinal,
    weekday?_eq_some.mpr ⟨weekday, named, rfl⟩, anchorOf?_eq_some.mpr ⟨filled, rfl⟩,
    Option.bind_eq_bind, Option.bind_some]
  exact congrArg some (nthWeekdayAfter?_read (Count.of 1))

theorem weekdayAfter?_of_ordinal (listed : article ∈ articles)
    (counted : (ordinal, count.val) ∈ ordinalWords) (named : IsWeekday day weekday) :
    weekdayAfter? (article ++ ordinal :: day :: "after" :: rest) =
      some (Wording.weekdayAfter (Text.joinWith " " rest) weekday count).read := by
  obtain ⟨-, plain, -⟩ := number?_of_ordinal counted
  have found : ordinalWords.lookup ordinal = some count.val := by
    rw [Keyed.lookup_eq_find?, Keyed.find?_eq_some_iff (by decide)]
    exact counted
  simp only [weekdayAfter?, dropArticle_append listed plain, found,
    weekday?_eq_some.mpr ⟨weekday, named, rfl⟩, anchorOf?_eq_some.mpr ⟨filled, rfl⟩,
    Option.bind_eq_bind, Option.bind_some, nthWeekdayAfter?_read]

theorem weekdayBefore?_of_spelled (listed : article ∈ articles) (named : IsWeekday day weekday) :
    weekdayBefore? (article ++ day :: "before" :: rest) =
      some (Wording.relative (Text.joinWith " " rest) (-1) (some weekday) .onOrBefore).read := by
  obtain ⟨-, plain, -⟩ := number?_of_isWeekday named
  simp only [weekdayBefore?, dropArticle_append listed plain,
    weekday?_eq_some.mpr ⟨weekday, named, rfl⟩, anchorOf?_eq_some.mpr ⟨filled, rfl⟩,
    Option.bind_eq_bind, Option.bind_some, relative_read_weekday]

end Shapes

theorem weekdayDaysBefore?_of_number {number : String} {counted : Except Failure Nat}
    (found : number? number = some counted) :
    weekdayDaysBefore? (number :: next :: rest) = none := by
  obtain ⟨plain, other⟩ := of_number?_eq_some found
  show weekdayDaysBefore? ([] ++ number :: next :: rest) = none
  exact weekdayDaysBefore?_eq_none (List.mem_cons_self ..) plain (Or.inl other)

/-- Words are read as the wording that they spell: no shape that is tried before fits them. -/
theorem findSome?_shapes (spelled : Spells words wording) :
    shapes.findSome? (fun shape => shape words) = some wording.read := by
  simp only [shapes, List.findSome?_cons]
  -- The shapes are tried in a fixed order: each case dismisses those before its own.
  cases spelled with
  | @monthDay name number month day listed own =>
    have first : beforeFeast? [name, number] = none := rfl
    rw [first, fixed?_of_spelled listed own]
  | @daysBeforeFeast number days n article feast spelled dayWord listed member =>
    have counted := number?_of_isNumber spelled
    rw [beforeFeast?_of_feast counted dayWord ⟨article, listed, feast, member, rfl⟩]
  | @weekdayDaysBefore article day number days weekday n rest listed named spelled dayWord filled =>
    have counted := number?_of_isNumber spelled
    obtain ⟨other, -, -⟩ := number?_of_isWeekday named
    rw [(spans_eq_none listed other _).1, fixed?_eq_none (by simp; omega),
      weekdayDaysBefore?_of_spelled filled listed named counted dayWord]
  | @daysBefore number days n rest spelled dayWord filled never =>
    have counted := number?_of_isNumber spelled
    rw [beforeFeast?_of_other counted (by simpa using never), fixed?_eq_none (by simp),
      weekdayDaysBefore?_of_number counted, daysBefore?_of_spelled filled counted dayWord]
  | @daysAfter number days n rest spelled dayWord filled =>
    have counted := number?_of_isNumber spelled
    have first : beforeFeast? (number :: days :: "after" :: rest) = none := by simp [beforeFeast?]
    have fourth : daysBefore? (number :: days :: "after" :: rest) = none := by simp [daysBefore?]
    rw [first, fixed?_eq_none (by simp), weekdayDaysBefore?_of_number counted, fourth,
      daysAfter?_of_spelled filled counted dayWord]
  | @firstWeekdayAfter article day weekday rest listed named filled =>
    have more := length_pos_of_joinWith filled
    obtain ⟨other, plain, -⟩ := number?_of_isWeekday named
    obtain ⟨first, fourth, fifth⟩ := spans_eq_none listed other ("after" :: rest)
    rw [first, fixed?_eq_none (by simp; omega),
      weekdayDaysBefore?_eq_none listed plain (Or.inr (by decide)), fourth, fifth,
      weekdayAfter?_of_first filled listed named]
  | @weekdayAfter article ordinal day count weekday rest listed counted named filled =>
    obtain ⟨other, plain, noWeekday⟩ := number?_of_ordinal counted
    obtain ⟨first, fourth, fifth⟩ := spans_eq_none listed other (day :: "after" :: rest)
    rw [first, fixed?_eq_none (by simp; omega),
      weekdayDaysBefore?_eq_none listed plain (Or.inl noWeekday), fourth, fifth,
      weekdayAfter?_of_ordinal filled listed counted named]
  | @weekdayBefore article day weekday rest listed named filled =>
    have more := length_pos_of_joinWith filled
    obtain ⟨other, plain, noOrdinal⟩ := number?_of_isWeekday named
    obtain ⟨first, fourth, fifth⟩ := spans_eq_none listed other ("before" :: rest)
    have sixth : weekdayAfter? (article ++ day :: "before" :: rest) = none := by
      simp only [weekdayAfter?, dropArticle_append listed plain, noOrdinal]
      rfl
    rw [first, fixed?_eq_none (by simp; omega),
      weekdayDaysBefore?_eq_none listed plain (Or.inr (by decide)), fourth, fifth, sixth,
      weekdayBefore?_of_spelled filled listed named]

theorem findSome?_shapes_eq_none_iff (short : IsShort words) :
    shapes.findSome? (fun shape => shape words) = none ↔ ∀ wording, ¬Spells words wording := by
  constructor
  · intro none wording spelled
    rw [findSome?_shapes spelled] at none
    cases none
  · intro unspelled
    have unread : ∀ attempt, ¬∃ wording, Spells words wording ∧ attempt = wording.read :=
      fun _ ⟨wording, spelled, _⟩ => unspelled wording spelled
    have never : beforeFeast? words = none :=
      Option.eq_none_iff_forall_ne_some.mpr fun attempt fits =>
        unread attempt (spells_of_beforeFeast? short fits)
    rw [List.findSome?_eq_none_iff]
    intro shape member
    rw [Option.eq_none_iff_forall_ne_some]
    intro attempt fits
    apply unread attempt
    simp only [shapes, List.mem_cons, List.not_mem_nil, or_false] at member
    rcases member with rfl | rfl | rfl | rfl | rfl | rfl | rfl
    · exact spells_of_beforeFeast? short fits
    · exact spells_of_fixed? fits
    · exact spells_of_weekdayDaysBefore? short fits
    · exact spells_of_daysBefore? short never fits
    · exact spells_of_daysAfter? short fits
    · exact spells_of_weekdayAfter? fits
    · exact spells_of_weekdayBefore? fits

end Reading

section Parsing

variable {text : String} {known : List Text} {wording : Wording} {rule : Rule}

theorem parse_of_spells (spelled : Spells (words text) wording) :
    parse text known = wording.read := by
  rw [parse, findSome?_shapes spelled]

def phraseOf (text : String) : String := Text.joinWith " " (words text)

theorem parse_of_unspelled (short : IsShort (words text))
    (unspelled : ∀ wording, ¬Spells (words text) wording) :
    parse text known =
      if Text.ofString (anchorKey (phraseOf text)) ∈ known then
        (keyNamed "anchor.anchor" (phraseOf text)).mapError Failure.invalid >>= fun key =>
          .ok (.anchor key)
      else .ok (.raw (.str (Text.strip text))) := by
  rw [parse, (findSome?_shapes_eq_none_iff short).mpr unspelled]
  simp only [List.contains_iff_mem]
  rw [Rule.anchor?, key_anchorKey]
  rfl

/-- The rule that a text denotes: what a wording means or, failing one, a known anchor. -/
def Denotes (text : String) (known : List Text) (rule : Rule) : Prop :=
  (∃ wording, Spells (words text) wording ∧ wording.meant = .ok rule) ∨
    (∀ wording, ¬Spells (words text) wording) ∧
      ∃ key, rule = .anchor key ∧ key.val = anchorKey (phraseOf text) ∧ key.val ∈ known

/-- A text with the words of a rule that means none. -/
def IsVoid (text : String) (known : List Text) : Prop :=
  (∃ wording, Spells (words text) wording ∧ wording.IsVoid) ∨
    (∀ wording, ¬Spells (words text) wording) ∧ IsNameless (phraseOf text) ∧ [] ∈ known

theorem isVoid_of_spells (spelled : Spells (words text) wording) :
    IsVoid text known ↔ ∃ own, Spells (words text) own ∧ own.IsVoid := by
  constructor
  · rintro (void | ⟨unspelled, -⟩)
    · exact void
    · exact absurd spelled (unspelled wording)
  · exact Or.inl

theorem Wording.read_eq_ok : wording.read = .ok rule ↔ wording.meant = .ok rule :=
  Attempt.mapError_eq_ok

theorem Wording.read_invalid (wording : Wording) : FailsOnly Failure.IsInvalid wording.read :=
  Attempt.failsOnly_mapError fun cause _ => Failure.isInvalid_invalid cause

theorem Wording.exists_error_iff (wording : Wording) :
    (∃ failure, wording.read = .error failure) ↔ wording.IsVoid := by
  simp only [Attempt.exists_error_iff, read_eq_ok, exists_meant_iff, not_not]

theorem parse_of_denotes (short : IsShort (words text))
    (denotes : Denotes text known rule) : parse text known = .ok rule := by
  rcases denotes with ⟨wording, spelled, meant⟩ | ⟨unspelled, key, rfl, named, listed⟩
  · rw [parse_of_spells spelled]
    exact Wording.read_eq_ok.mpr meant
  · rw [named] at listed
    rw [parse_of_unspelled short unspelled, if_pos listed, keyNamed_eq_ok_iff.mpr named]
    rfl

theorem exists_error_iff_of_unspelled (short : IsShort (words text))
    (unspelled : ∀ wording, ¬Spells (words text) wording) :
    (∃ failure, parse text known = .error failure) ↔ IsNameless (phraseOf text) ∧ [] ∈ known := by
  rw [parse_of_unspelled short unspelled]
  split
  next listed =>
    rw [Attempt.exists_error_iff]
    simp only [Attempt.bind_eq_ok, Attempt.mapError_eq_ok, Except.ok.injEq]
    constructor
    · intro none
      have nameless : IsNameless (phraseOf text) := by
        rw [← not_not (a := IsNameless (phraseOf text)), ← exists_keyNamed_iff "anchor.anchor"]
        exact fun ⟨key, named⟩ => none ⟨_, key, named, rfl⟩
      rw [ofString_anchorKey_eq_nil_iff.mpr nameless] at listed
      exact ⟨nameless, listed⟩
    · rintro ⟨nameless, -⟩ ⟨_, key, named, -⟩
      exact (exists_keyNamed_iff "anchor.anchor").mp ⟨key, named⟩ nameless
  next unlisted =>
    simp only [reduceCtorEq, exists_false, false_iff, not_and]
    intro nameless
    rw [ofString_anchorKey_eq_nil_iff.mpr nameless] at unlisted
    exact unlisted

theorem exists_parse_error_iff (short : IsShort (words text)) :
    (∃ failure, parse text known = .error failure) ↔ IsVoid text known := by
  by_cases some : ∃ wording, Spells (words text) wording
  · obtain ⟨wording, spelled⟩ := some
    rw [isVoid_of_spells spelled]
    constructor
    · intro refused
      rw [parse_of_spells spelled, wording.exists_error_iff] at refused
      exact ⟨wording, spelled, refused⟩
    · rintro ⟨own, spelled, void⟩
      rw [parse_of_spells spelled, own.exists_error_iff]
      exact void
  · have unspelled := not_exists.mp some
    rw [exists_error_iff_of_unspelled short unspelled, IsVoid]
    simp only [unspelled, false_and, exists_false, not_false_eq_true, implies_true, true_and,
      false_or]

theorem parse_invalid (short : IsShort (words text)) :
    FailsOnly Failure.IsInvalid (parse text known) := by
  by_cases some : ∃ wording, Spells (words text) wording
  · obtain ⟨wording, spelled⟩ := some
    rw [parse_of_spells spelled]
    exact wording.read_invalid
  · rw [parse_of_unspelled short (not_exists.mp some)]
    split
    · exact (Attempt.failsOnly_mapError fun cause _ => Failure.isInvalid_invalid cause).bind
        fun key _ => Attempt.failsOnly_ok _
    · exact Attempt.failsOnly_ok _

theorem parse_of_meaningless (short : IsShort (words text))
    (meaningless : ∀ rule, ¬Denotes text known rule) (sound : ¬IsVoid text known) :
    parse text known = .ok (.raw (.str (Text.strip text))) := by
  have unspelled : ∀ wording, ¬Spells (words text) wording := by
    intro wording spelled
    have void : ¬wording.IsVoid := fun void => sound (Or.inl ⟨wording, spelled, void⟩)
    obtain ⟨rule, meant⟩ := wording.exists_meant_iff.mpr void
    exact meaningless rule (Or.inl ⟨wording, spelled, meant⟩)
  have unlisted : Text.ofString (anchorKey (phraseOf text)) ∉ known := by
    intro listed
    by_cases nameless : IsNameless (phraseOf text)
    · rw [ofString_anchorKey_eq_nil_iff.mpr nameless] at listed
      exact sound (Or.inr ⟨unspelled, nameless, listed⟩)
    · obtain ⟨key, named⟩ := (exists_keyNamed_iff "anchor.anchor").mpr nameless
      have own := keyNamed_eq_ok_iff.mp named
      rw [← own] at listed
      exact meaningless (.anchor key) (Or.inr ⟨unspelled, key, rfl, own, listed⟩)
  rw [parse_of_unspelled short unspelled, if_neg unlisted]

/-- A text is read as the rule that it denotes and, if it denotes none, kept as it is. Only words of
a rule that counts no days or has no name for its anchor are refused, as an invalid parameter. -/
theorem parse_outcome (text : String) (known : List Text)
    (short : IsShort (words text)) :
    (∀ rule, Denotes text known rule → parse text known = .ok rule) ∧
    ((∀ rule, ¬Denotes text known rule) → ¬IsVoid text known →
      parse text known = .ok (.raw (.str (Text.strip text)))) ∧
    ((∃ failure, parse text known = .error failure) ↔ IsVoid text known) ∧
    ∀ failure, parse text known = .error failure → failure.IsInvalid :=
  ⟨fun _ => parse_of_denotes short, parse_of_meaningless short, exists_parse_error_iff short,
    parse_invalid short⟩

theorem words_nineDays :
    words " Nine days  before the feastday." = ["nine", "days", "before", "the", "feastday"] := by
  decide

/-- What is asked for holds of the nine days before a feast. -/
theorem parse_outcome_nineDays :
    IsShort (words " Nine days  before the feastday.") ∧
      parse " Nine days  before the feastday." [] = .ok (.beforeFeast (Count.of 9) none) := by
  have short : IsShort (words " Nine days  before the feastday.") := by
    rw [words_nineDays]
    exact isShort_of_length (by decide)
  have spelled : Spells (words " Nine days  before the feastday.") (.daysBeforeFeast 9) := by
    have nine : Spells ("nine" :: "days" :: "before" :: (["the"] ++ ["feastday"]))
        (.daysBeforeFeast 9) :=
      .daysBeforeFeast (Or.inr (by decide)) (by decide) (by decide) (by decide)
    rw [words_nineDays]
    exact nine
  exact ⟨short, (parse_outcome _ [] short).1 _ (Or.inl ⟨_, spelled, rfl⟩)⟩

/-- Not every text is read: no days before the feast are refused. -/
theorem not_always_read : ¬∀ (text : String) (known : List Text),
    (∃ rule, parse text known = .ok rule) ∧ ((∀ rule, ¬Denotes text known rule) →
      parse text known = .ok (.raw (.str (Text.strip text)))) := by
  intro all
  obtain ⟨⟨rule, read⟩, -⟩ := all "0 days before the feast" []
  have refused : parse "0 days before the feast" [] =
      .error (.invalid (.outsideRange "before_feast.days_before" 1 none 0)) := by
    rfl
  rw [refused] at read
  cases read

end Parsing

end FeastCalendar.Phrase
