import FeastCalendar.Proofs.Rule.Reading

/-!
Rules said in words. A rule is said in one of a few ways, an anchor by the parts of its key. Shown
in any letters, with any blanks between the words and around and full stops at the end, what is said
is read as the rule.
-/

namespace FeastCalendar.Phrase
open Text (IsPlain Renders digitLimit natDigits)

section Names

variable {parts : List String} {key : Key}

/-- The parts by which a key is said, parted by blanks in place of underscores: they name it. -/
structure Names (parts : List String) (key : Key) : Prop where
  filled : parts ≠ []
  plain : ∀ part ∈ parts, IsPlain part
  joined : key.val = Text.joinWith "_" parts
  named : anchorKey (Text.joinWith " " parts) = Text.joinWith "_" parts

theorem Names.key_eq (names : Names parts key) :
    key.val = anchorKey (Text.joinWith " " parts) := by
  rw [names.named]
  exact names.joined

theorem Names.phrase_ne_empty (names : Names parts key) : Text.joinWith " " parts ≠ "" := by
  intro empty
  have none : anchorKey "" = "" := by decide
  have joined := names.key_eq
  rw [empty, none] at joined
  exact key.property joined

theorem Names.keyNamed (names : Names parts key) (field : String) :
    keyNamed field (Text.joinWith " " parts) = .ok key := keyNamed_eq_ok_iff.mpr names.key_eq

theorem Names.not_feast (names : Names parts key)
    (other : ∀ feast ∈ ["feast", "feastday", "feast_day"], key.val ≠ Text.ofString feast) :
    ∀ article ∈ articles, ∀ feast ∈ feastWords, parts ≠ article ++ feast := by
  have feasts : ∀ article ∈ articles, ∀ feast ∈ feastWords,
      anchorKey (Text.joinWith " " (article ++ feast)) ∈ ["feast", "feastday", "feast_day"] := by
    decide
  rintro article listed feast member rfl
  exact other _ (feasts article listed feast member) names.key_eq

end Names

def digitsOf (n : Nat) : String := String.ofList (natDigits n)

/-- The words in which a rule is said, where `counted` are the numbers of days that may be said and
`known` the anchors that may be named alone. -/
inductive Tells (known : List Text) (counted : Nat → Prop) : List String → Rule → Prop where
  | monthDay {name : String} {month : Month} {day : MonthDay} :
      (name, month.val) ∈ months →
      Tells known counted [name, digitsOf day.val.toNat] (.fixed month day)
  | daysBeforeFeast {days : Count} :
      counted days.val.toNat →
      Tells known counted [digitsOf days.val.toNat, "days", "before", "the", "feast"]
        (.beforeFeast days none)
  | daysBefore {n : Nat} {parts : List String} {key : Key} :
      counted n → Names parts key →
      (∀ feast ∈ ["feast", "feastday", "feast_day"], key.val ≠ Text.ofString feast) →
      Tells known counted (digitsOf n :: "days" :: "before" :: parts)
        (.relative key (-n) none .onOrAfter)
  | daysAfter {n : Nat} {parts : List String} {key : Key} :
      counted n → Names parts key →
      Tells known counted (digitsOf n :: "days" :: "after" :: parts)
        (.relative key n none .onOrAfter)
  | weekdayDaysBefore {day : String} {weekday : Weekday} {n : Nat} {parts : List String}
      {key : Key} :
      IsWeekday day weekday → counted n → Names parts key →
      Tells known counted ("the" :: day :: digitsOf n :: "days" :: "before" :: parts)
        (.relative key (-n) (some weekday) .onOrBefore)
  | weekdayBefore {day : String} {weekday : Weekday} {parts : List String} {key : Key} :
      IsWeekday day weekday → Names parts key →
      Tells known counted (day :: "before" :: parts) (.relative key (-1) (some weekday) .onOrBefore)
  | firstWeekdayAfter {day : String} {weekday : Weekday} {parts : List String} {key : Key} :
      IsWeekday day weekday → Names parts key →
      Tells known counted (day :: "after" :: parts) (.nthWeekdayAfter key weekday (Count.of 1))
  | weekdayAfter {ordinal day : String} {count : Count} {weekday : Weekday} {parts : List String}
      {key : Key} :
      (ordinal, count.val) ∈ ordinalWords → IsWeekday day weekday → Names parts key →
      Tells known counted (ordinal :: day :: "after" :: parts) (.nthWeekdayAfter key weekday count)
  | alone {parts : List String} {key : Key} :
      Names parts key → key.val ∈ known → "before" ∉ parts → "after" ∉ parts →
      (∀ name number month day, parts = [name, number] → (name, month) ∈ months →
        ¬IsMonthDay number day) →
      Tells known counted parts (.anchor key)

section Words

variable {known : List Text} {counted : Nat → Prop} {spoken : List String} {rule : Rule}

theorem isPlain_digitsOf (n : Nat) : IsPlain (digitsOf n) := by
  constructor
  · intro empty
    have digits := String.toList_eq_nil_iff.mpr empty
    rw [digitsOf, String.toList_ofList] at digits
    exact Text.natDigits_ne_nil n digits
  · intro c member
    rw [digitsOf, String.toList_ofList] at member
    have bounds := Text.mem_natDigits_bounds member
    simp [Text.isIdentifierChar, bounds]

theorem toList_digitsOf (n : Nat) : (digitsOf n).toList = natDigits n := String.toList_ofList

theorem isDigit_of_mem_digitsOf {n : Nat} : ∀ c ∈ (digitsOf n).toList, Text.isDigit c = true := by
  rw [toList_digitsOf]
  exact fun c member => Text.isDigit_of_bounds (Text.mem_natDigits_bounds member)

theorem isNumber_digitsOf {n : Nat} (short : (natDigits n).length ≤ digitLimit) :
    IsNumber (digitsOf n) n := by
  refine Or.inl ⟨(isPlain_digitsOf n).1, isDigit_of_mem_digitsOf, ?_, ?_⟩
  · rw [toList_digitsOf]
    exact short
  · rw [toList_digitsOf]
    exact Text.digitsValue_natDigits n

theorem isMonthDay_digitsOf (day : MonthDay) : IsMonthDay (digitsOf day.val.toNat) day.val := by
  have few : (natDigits day.val.toNat).length ≤ 2 := by
    have range := day.property
    exact (Nat.length_toDigits_le_iff (by decide) (by decide)).mpr (by omega)
  have some : 0 < (natDigits day.val.toNat).length :=
    List.length_pos_iff.mpr (Text.natDigits_ne_nil _)
  refine ⟨natDigits day.val.toNat, "", ?_, ?_, by omega, by decide, ?_⟩
  · simp [digitsOf]
  · exact fun c member => Text.isDigit_of_bounds (Text.mem_natDigits_bounds member)
  · rw [Text.digitsValue_natDigits]
    exact Int.toNat_of_nonneg (by have := day.property; omega)

theorem isPlain_of_isWeekday {day : String} {weekday : Weekday} (named : IsWeekday day weekday) :
    IsPlain day := by
  have all : ∀ name ∈ Civil.weekdayNames, IsPlain name := by decide
  exact all day (List.mem_of_getElem? named)

theorem Tells.plain (told : Tells known counted spoken rule) : ∀ word ∈ spoken, IsPlain word := by
  have common : ∀ word ∈ ["the", "days", "before", "after", "feast"], IsPlain word := by decide
  have monthNames : ∀ entry ∈ months, IsPlain entry.1 := by decide
  have ordinals : ∀ entry ∈ ordinalWords, IsPlain entry.1 := by decide
  simp only [List.forall_mem_cons] at common
  obtain ⟨the, days, before, after, feast, -⟩ := common
  cases told with
  | monthDay listed =>
    simp only [List.forall_mem_cons]
    exact ⟨monthNames _ listed, isPlain_digitsOf _, nofun⟩
  | daysBeforeFeast =>
    simp only [List.forall_mem_cons]
    exact ⟨isPlain_digitsOf _, days, before, the, feast, nofun⟩
  | daysBefore _ names =>
    simp only [List.forall_mem_cons]
    exact ⟨isPlain_digitsOf _, days, before, names.plain⟩
  | daysAfter _ names =>
    simp only [List.forall_mem_cons]
    exact ⟨isPlain_digitsOf _, days, after, names.plain⟩
  | weekdayDaysBefore named _ names =>
    simp only [List.forall_mem_cons]
    exact ⟨the, isPlain_of_isWeekday named, isPlain_digitsOf _, days, before, names.plain⟩
  | weekdayBefore named names =>
    simp only [List.forall_mem_cons]
    exact ⟨isPlain_of_isWeekday named, before, names.plain⟩
  | firstWeekdayAfter named names =>
    simp only [List.forall_mem_cons]
    exact ⟨isPlain_of_isWeekday named, after, names.plain⟩
  | weekdayAfter listed named names =>
    simp only [List.forall_mem_cons]
    exact ⟨ordinals _ listed, isPlain_of_isWeekday named, after, names.plain⟩
  | alone names => exact names.plain

theorem words_of_renders {text : String} (renders : Renders text spoken)
    (plain : ∀ word ∈ spoken, IsPlain word) : words text = spoken := by
  unfold words
  simp only [renders.split plain, List.map_map]
  simp [Function.comp_def]

/-- Words with no word of time before or after, and of no day of a month, spell no wording. -/
theorem not_spells_of_alone {parts : List String} (noBefore : "before" ∉ parts)
    (noAfter : "after" ∉ parts)
    (noDay : ∀ name number month day, parts = [name, number] → (name, month) ∈ months →
      ¬IsMonthDay number day) (wording : Wording) : ¬Spells parts wording := by
  intro spelled
  cases spelled with
  | monthDay listed own => exact noDay _ _ _ _ rfl listed own
  | daysBeforeFeast => exact noBefore (by simp)
  | weekdayDaysBefore => exact noBefore (by simp)
  | daysBefore => exact noBefore (by simp)
  | daysAfter => exact noAfter (by simp)
  | firstWeekdayAfter => exact noAfter (by simp)
  | weekdayAfter => exact noAfter (by simp)
  | weekdayBefore => exact noBefore (by simp)

theorem isShort_of_alone {parts : List String} (noBefore : "before" ∉ parts)
    (noAfter : "after" ∉ parts) : IsShort parts := by
  intro number days turn inside turned
  have member : turn ∈ parts := inside.subset (by simp)
  simp only [List.mem_cons, List.not_mem_nil, or_false] at turned
  rcases turned with rfl | rfl
  · exact absurd member noBefore
  · exact absurd member noAfter

def IsReadable (n : Nat) : Prop := (natDigits n).length ≤ digitLimit

theorem Tells.exists_wording (told : Tells known IsReadable spoken rule) :
    (∃ wording, Spells spoken wording ∧ wording.meant = .ok rule) ∨
      IsShort spoken ∧ (∀ wording, ¬Spells spoken wording) ∧ ∃ key, rule = .anchor key ∧
        key.val = anchorKey (Text.joinWith " " spoken) ∧ key.val ∈ known := by
  have bare : [] ∈ articles := List.mem_cons_self ..
  have the : ["the"] ∈ articles := by decide
  have days : "days" ∈ dayWords := by decide
  cases told with
  | @monthDay name month day listed =>
    exact Or.inl ⟨_, .monthDay listed (isMonthDay_digitsOf day), rfl⟩
  | @daysBeforeFeast count short =>
    have feast : ["feast"] ∈ feastWords := List.mem_cons_self ..
    have own : (count.val.toNat : Int) = count.val :=
      Int.toNat_of_nonneg (by have := count.property; omega)
    have positive : 1 ≤ (count.val.toNat : Int) := by
      rw [own]
      exact count.property
    have whole : (⟨count.val.toNat, positive⟩ : Count) = count := Subtype.ext own
    refine Or.inl ⟨_, .daysBeforeFeast (isNumber_digitsOf short) days the feast, ?_⟩
    rw [Wording.meant, dif_pos positive, whole]
  | @daysBefore n parts key short names other =>
    refine Or.inl ⟨_, .daysBefore (isNumber_digitsOf short) days names.phrase_ne_empty
      (names.not_feast other), ?_⟩
    rw [Wording.meant, names.keyNamed]
    rfl
  | @daysAfter n parts key short names =>
    refine Or.inl ⟨_, .daysAfter (isNumber_digitsOf short) days names.phrase_ne_empty, ?_⟩
    rw [Wording.meant, names.keyNamed]
    rfl
  | @weekdayDaysBefore day weekday n parts key named short names =>
    refine Or.inl ⟨_, .weekdayDaysBefore the named (isNumber_digitsOf short) days
      names.phrase_ne_empty, ?_⟩
    rw [Wording.meant, names.keyNamed]
    rfl
  | @weekdayBefore day weekday parts key named names =>
    refine Or.inl ⟨_, .weekdayBefore bare named names.phrase_ne_empty, ?_⟩
    rw [Wording.meant, names.keyNamed]
    rfl
  | @firstWeekdayAfter day weekday parts key named names =>
    refine Or.inl ⟨_, .firstWeekdayAfter bare named names.phrase_ne_empty, ?_⟩
    rw [Wording.meant, names.keyNamed]
    rfl
  | @weekdayAfter ordinal day count weekday parts key listed named names =>
    refine Or.inl ⟨_, .weekdayAfter bare listed named names.phrase_ne_empty, ?_⟩
    rw [Wording.meant, names.keyNamed]
    rfl
  | @alone parts key names listed noBefore noAfter noDay =>
    exact Or.inr ⟨isShort_of_alone noBefore noAfter, not_spells_of_alone noBefore noAfter noDay,
      key, rfl, names.key_eq, listed⟩

/-- A rule is read from its words, however they are shown. -/
theorem parse_of_told {text : String} (told : Tells known IsReadable spoken rule)
    (renders : Renders text spoken) : parse text known = .ok rule := by
  have own : words text = spoken := words_of_renders renders told.plain
  rcases told.exists_wording with
    ⟨wording, spelled, meant⟩ | ⟨short, unspelled, key, rfl, named, listed⟩
  · rw [← own] at spelled
    rw [parse_of_spells spelled]
    exact Wording.read_eq_ok.mpr meant
  · rw [← own] at short unspelled named
    exact parse_of_denotes short (Or.inr ⟨unspelled, key, rfl, named, listed⟩)

/-- What is asked for holds of the ninth day before Christmas, on to the Sunday before. -/
theorem parse_of_told_ninthDay :
    Tells [] IsReadable ["the", "sunday", "9", "days", "before", "christmas"]
        (.relative (Key.named "christmas") (-9) (some (Between.of 0)) .onOrBefore) ∧
      Renders "  The SUNDAY 9\tdays before  Christmas.. "
        ["the", "sunday", "9", "days", "before", "christmas"] ∧
      parse "  The SUNDAY 9\tdays before  Christmas.. " [] =
        .ok (.relative (Key.named "christmas") (-9) (some (Between.of 0)) .onOrBefore) := by
  have christmas : Names ["christmas"] (Key.named "christmas") :=
    ⟨by decide, by decide, rfl, by decide⟩
  have told : Tells [] IsReadable ["the", "sunday", digitsOf 9, "days", "before", "christmas"]
      (.relative (Key.named "christmas") (-9) (some (Between.of 0)) .onOrBefore) :=
    .weekdayDaysBefore rfl (by unfold IsReadable; decide) christmas
  have blank : ∀ c ∈ [' '], Text.isBlank c = true := List.all_eq_true.mp rfl
  have blanks : ∀ c ∈ [' ', ' '], Text.isBlank c = true := List.all_eq_true.mp rfl
  have tab : ∀ c ∈ ['\t'], Text.isBlank c = true := List.all_eq_true.mp rfl
  have shown : Text.Shows ("The".toList ++ [' '] ++ ("SUNDAY".toList ++ [' '] ++
      ("9".toList ++ ['\t'] ++ ("days".toList ++ [' '] ++ ("before".toList ++ [' ', ' '] ++
        "Christmas".toList))))) ["the", "sunday", "9", "days", "before", "christmas"] :=
    .next rfl (by decide) blank (.next rfl (by decide) blank (.next rfl (by decide) tab
      (.next rfl (by decide) blank (.next rfl (by decide) blanks (.last rfl)))))
  have renders : Renders "  The SUNDAY 9\tdays before  Christmas.. "
      ["the", "sunday", "9", "days", "before", "christmas"] :=
    ⟨[' ', ' '], _, ['.', '.'], [' '], rfl, blanks, shown, by simp, blank⟩
  exact ⟨told, renders, parse_of_told told renders⟩

theorem parse_of_long {text : String} {n : Nat} {rest : List String}
    (own : words text = digitsOf n :: "days" :: "after" :: rest)
    (filled : Text.joinWith " " rest ≠ "") (long : digitLimit < (natDigits n).length) :
    parse text known = .error (.numeral (.tooLong (natDigits n).length)) := by
  have counted : number? (digitsOf n) =
      some (.error (.numeral (.tooLong (natDigits n).length))) := by
    rw [number?_of_digits (isPlain_digitsOf n).1 isDigit_of_mem_digitsOf, toList_digitsOf,
      Text.boundedValue, if_pos long]
    rfl
  have first : beforeFeast? (digitsOf n :: "days" :: "after" :: rest) = none := by
    simp [beforeFeast?]
  have fourth : daysBefore? (digitsOf n :: "days" :: "after" :: rest) = none := by
    simp [daysBefore?]
  have fifth : daysAfter? (digitsOf n :: "days" :: "after" :: rest) =
      some (.error (.numeral (.tooLong (natDigits n).length))) := by
    simp only [daysAfter?, counted, anchorOf?_eq_some.mpr ⟨filled, rfl⟩, Option.bind_eq_bind,
      Option.bind_some]
    rfl
  rw [parse, own]
  simp only [shapes, List.findSome?_cons]
  rw [first, fixed?_eq_none (by simp), weekdayDaysBefore?_of_number counted, fourth, fifth]

end Words

/-- Not every number of days is read: ten to the power of the limit has a digit too many. -/
theorem not_every_number_read :
    ¬∀ (known : List Text) (spoken : List String) (rule : Rule) (text : String),
      Tells known (fun _ => True) spoken rule → Renders text spoken →
        parse text known = .ok rule := by
  intro all
  have easter : Names ["easter"] (Key.named "easter") := ⟨by decide, by decide, rfl, by decide⟩
  have told : Tells [] (fun _ => True)
      (digitsOf (10 ^ digitLimit) :: "days" :: "after" :: ["easter"])
      (.relative (Key.named "easter") (10 ^ digitLimit : Nat) none .onOrAfter) :=
    .daysAfter trivial easter
  have renders := Text.renders_joinWith (List.cons_ne_nil _ _) told.plain
  have long : (natDigits (10 ^ digitLimit)).length = digitLimit + 1 := by
    rw [Text.natDigits_pow, List.length_cons, List.length_replicate]
  have read := all _ _ _ _ told renders
  rw [parse_of_long (words_of_renders renders told.plain) easter.phrase_ne_empty (by omega)] at read
  cases read

end FeastCalendar.Phrase
