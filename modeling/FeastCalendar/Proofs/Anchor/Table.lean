import FeastCalendar.Anchor.Table
import FeastCalendar.Proofs.Anchor.Order

/-!
The table of a year against its definitions. Every date of a finished table is the one that its
definition gives against that same table, although it was reckoned from a part of it.
-/

namespace FeastCalendar
open Civil (Date)

theorem Anchor.resolve_congr (anchor : Anchor) (year : Int) (easter : Date)
    {placed other : Keyed Text Date}
    (same : ∀ base ∈ anchor.dependsOn, Keyed.find? placed base = Keyed.find? other base) :
    anchor.resolve year easter placed = anchor.resolve year easter other := by
  cases anchor with
  | anchorOffset base days =>
    simp only [resolve]
    rw [same base (by simp [dependsOn])]
  | _ => rfl

def Failure.OfDate (failure : Failure) : Prop := ∃ cause, failure = .date cause

theorem inRange_failsOnly (found : Option Date) : Attempt.FailsOnly Failure.OfDate (inRange found) :=
  fun _ refused => ⟨_, (inRange_eq_error.mp refused).2⟩

theorem Anchor.dayOf_failsOnly (year month day : Int) :
    Attempt.FailsOnly Failure.OfDate (dayOf year month day) :=
  Attempt.failsOnly_mapError fun cause _ => ⟨cause, rfl⟩

theorem Anchor.firstSunday_failsOnly (year month day : Int) (count : Nat) :
    Attempt.FailsOnly Failure.OfDate (firstSunday year month count day) := by
  induction count generalizing day with
  | zero => exact Attempt.failsOnly_ok none
  | succ count ih =>
    refine (dayOf_failsOnly year month day).bind fun date _ => ?_
    split
    · exact Attempt.failsOnly_ok _
    · exact ih (day + 1)

theorem Anchor.resolve_failsOnly {anchor : Anchor} {placed : Keyed Text Date}
    (present : ∀ base ∈ anchor.dependsOn, ∃ date, Keyed.find? placed base = some date)
    (year : Int) (easter : Date) :
    Attempt.FailsOnly Failure.OfDate (anchor.resolve year easter placed) := by
  cases anchor with
  | fixed month day names => exact dayOf_failsOnly year month day
  | easterOffset days names => exact inRange_failsOnly _
  | sundayInWindow month firstDay lastDay fallbackDay names =>
    refine (firstSunday_failsOnly year month firstDay _).bind fun found _ => ?_
    split
    · exact Attempt.failsOnly_ok _
    · exact dayOf_failsOnly year month fallbackDay
  | weekdayAfter month day weekday inclusive names =>
    exact (dayOf_failsOnly year month day).bind fun date _ => inRange_failsOnly _
  | anchorOffset base days =>
    obtain ⟨date, found⟩ := present base (by simp [dependsOn])
    simp only [resolve, found]
    exact inRange_failsOnly _

namespace AnchorTable

variable {definitions : Definitions} {year : Int} {easter : Date}

theorem place_snoc (order : List Text) (key : Text) :
    place definitions year easter (order ++ [key]) =
      place definitions year easter order >>= fun placed =>
        placeNext definitions year easter placed key := by
  simp [place]

theorem placeNext_eq_ok {placed next : Keyed Text Date} {key : Text} {anchor : Anchor}
    (defined : Keyed.find? definitions key = some anchor) :
    placeNext definitions year easter placed key = .ok next ↔
      ∃ date, anchor.resolve year easter placed = .ok date ∧ Keyed.put placed key date = next := by
  simp only [placeNext, defined]
  rw [Attempt.bind_eq_ok]
  simp only [Attempt.pure_eq_ok]

theorem placeNext_failsOnly {placed : Keyed Text Date} {key : Text}
    (member : key ∈ Keyed.keys definitions)
    (present : ∀ base, definitions.Depends key base → ∃ date, Keyed.find? placed base = some date) :
    Attempt.FailsOnly Failure.OfDate (placeNext definitions year easter placed key) := by
  obtain ⟨anchor, defined⟩ := Keyed.mem_keys_iff.mp member
  have bases := fun base names => present base ⟨anchor, defined, names⟩
  simp only [placeNext, defined]
  exact (Anchor.resolve_failsOnly bases year easter).bind fun date _ => Attempt.failsOnly_ok _

/-- Dates under some keys, of which each is what its definition gives against all of them. -/
structure Solves (definitions : Definitions) (year : Int) (easter : Date) (order : List Text)
    (dates : Keyed Text Date) : Prop where
  keys_eq : Keyed.keys dates = order
  resolved : ∀ key ∈ order, ∀ anchor, Keyed.find? definitions key = some anchor →
    ∃ date, Keyed.find? dates key = some date ∧ anchor.resolve year easter dates = .ok date

theorem Solves.find?_of_mem {order : List Text} {dates : Keyed Text Date} {key : Text}
    (solves : Solves definitions year easter order dates) (member : key ∈ order) :
    ∃ date, Keyed.find? dates key = some date := by
  rw [← Keyed.mem_keys_iff, solves.keys_eq]
  exact member

theorem Solves.find?_of_not_mem {order : List Text} {dates : Keyed Text Date} {key : Text}
    (solves : Solves definitions year easter order dates) (absent : key ∉ order) :
    Keyed.find? dates key = none := by
  rw [Keyed.find?_eq_none_iff, solves.keys_eq]
  exact absent

theorem Solves.put {order : List Text} {dates : Keyed Text Date} {key : Text} {anchor : Anchor}
    {date : Date} (solves : Solves definitions year easter order dates)
    (ordered : Definitions.Ordered definitions order) (fresh : key ∉ order)
    (defined : Keyed.find? definitions key = some anchor)
    (bases : ∀ base ∈ anchor.dependsOn, base ∈ order)
    (found : anchor.resolve year easter dates = .ok date) :
    Solves definitions year easter (order ++ [key]) (Keyed.put dates key date) := by
  have kept : ∀ other ∈ order, Keyed.find? dates other = Keyed.find? (Keyed.put dates key date) other := by
    intro other member
    have different : other ≠ key := fun same => fresh (same ▸ member)
    rw [Keyed.find?_put_of_ne dates date different]
  refine ⟨?_, ?_⟩
  · rw [Keyed.keys_put, solves.keys_eq, if_neg fresh]
  · intro other member own ownDefined
    rcases List.mem_append.mp member with before | last
    · obtain ⟨old, present, resolved⟩ := solves.resolved other before own ownDefined
      refine ⟨old, (kept other before).symm.trans present, ?_⟩
      rw [← resolved]
      refine (own.resolve_congr year easter fun base names => kept base ?_).symm
      exact ordered.base_mem before ⟨own, ownDefined, names⟩
    · rw [List.mem_singleton.mp last, defined] at ownDefined
      cases ownDefined
      refine ⟨date, ?_, ?_⟩
      · rw [List.mem_singleton.mp last, Keyed.find?_put_self]
      · rw [← found]
        exact (anchor.resolve_congr year easter fun base names => kept base (bases base names)).symm

theorem place_ok {order : List Text} {placed : Keyed Text Date}
    (ordered : Definitions.Ordered definitions order)
    (found : place definitions year easter order = .ok placed) :
    Solves definitions year easter order placed := by
  induction ordered generalizing placed with
  | nil =>
    cases found
    exact ⟨rfl, by simp⟩
  | snoc earlier fresh defined bases ih =>
    rw [place_snoc, Attempt.bind_eq_ok] at found
    obtain ⟨before, first, last⟩ := found
    obtain ⟨date, resolved, rfl⟩ := (placeNext_eq_ok defined).mp last
    exact (ih first).put earlier fresh defined bases resolved

theorem placingOrder_eq_ok {room : Nat} {order : List Text} :
    placingOrder room year definitions = .ok order ↔ definitions.orderWithin room = .ok order :=
  Attempt.mapError_eq_ok

theorem buildWithin_eq_ok {room : Nat} {given : Json} {table : AnchorTable} :
    buildWithin room given definitions = .ok table ↔
      ∃ year easter order, given = .int year ∧ Easter.sunday year = .ok easter ∧
        definitions.orderWithin room = .ok order ∧
        ∃ dates, place definitions year easter order = .ok dates ∧ table = ⟨.int year, dates⟩ := by
  simp only [buildWithin, Attempt.bind_eq_ok, Attempt.pure_eq_ok, Easter.yearOf_eq_ok,
    placingOrder_eq_ok]
  constructor
  · rintro ⟨year, given, easter, sunday, order, ordered, dates, placed, rfl⟩
    exact ⟨year, easter, order, given, sunday, ordered, dates, placed, rfl⟩
  · rintro ⟨year, easter, order, given, sunday, ordered, dates, placed, rfl⟩
    exact ⟨year, given, easter, sunday, order, ordered, dates, placed, rfl⟩

theorem buildWithin_ok {room : Nat} {table : AnchorTable}
    (built : buildWithin room (.int year) definitions = .ok table) :
    ∃ easter order, Easter.sunday year = .ok easter ∧ Definitions.Ordered definitions order ∧
      (∀ key, key ∈ order ↔ key ∈ Keyed.keys definitions) ∧
      Solves definitions year easter order table.dates := by
  obtain ⟨year, easter, order, same, sunday, found, dates, placed, rfl⟩ := buildWithin_eq_ok.mp built
  cases same
  obtain ⟨ordered, all⟩ := Definitions.orderWithin_ok found
  exact ⟨easter, order, sunday, ordered, all, place_ok ordered placed⟩

/-- The order of placing exists exactly if it can, and tells the truth where it is refused. While a
table is filled in that order, no base is missing, so that only a day that does not exist can stop
it. A finished table holds the keys defined, each on the date that its definition gives against the
whole table. -/
theorem placingOrder_exact (year : Int) (definitions : Definitions) :
    (∀ room, definitions.length < room →
      ((∃ order, placingOrder room year definitions = .ok order) ↔
        definitions.Closed ∧ definitions.Acyclic) ∧
      ∀ failure, placingOrder room year definitions = .error failure →
        (∃ key, failure = .fault { cause := .unknownAnchor key, year := some (.int year) } ∧
          key ∉ Keyed.keys definitions ∧ ∃ other, definitions.Depends other key) ∨
        ∃ path key, failure =
            .fault { cause := .invalid (.cycle (path ++ [key])), year := some (.int year) } ∧
          (path ++ [key]).IsChain definitions.Depends ∧ key ∈ path) ∧
    (∀ room order, placingOrder room year definitions = .ok order →
      order.Nodup ∧ (∀ key, key ∈ order ↔ key ∈ Keyed.keys definitions) ∧
      ∀ before key after, order = before ++ key :: after →
        (∀ base, definitions.Depends key base → base ∈ before) ∧
        ∀ easter placed, place definitions year easter before = .ok placed →
          (∀ base, definitions.Depends key base → ∃ date, Keyed.find? placed base = some date) ∧
          Attempt.FailsOnly Failure.OfDate (placeNext definitions year easter placed key)) ∧
    ∀ room table, buildWithin room (.int year) definitions = .ok table →
      (Keyed.keys table.dates).Nodup ∧
      (∀ key, key ∈ Keyed.keys table.dates ↔ key ∈ Keyed.keys definitions) ∧
      ∃ easter, Easter.ofYear (.int year) = .ok easter ∧
        ∀ key anchor, Keyed.find? definitions key = some anchor →
          ∃ date, table.find? key = some date ∧
            anchor.resolve year easter table.dates = .ok date := by
  refine ⟨?_, ?_, ?_⟩
  · intro room spacious
    refine ⟨?_, ?_⟩
    · simp only [placingOrder_eq_ok]
      exact Definitions.exists_orderWithin_iff spacious
    · intro failure refused
      obtain ⟨disorder, found, rfl⟩ := Attempt.mapError_eq_error.mp refused
      have explained := Definitions.orderWithin_error found
      cases disorder with
      | undefined key => exact Or.inl ⟨key, rfl, explained⟩
      | cycle walk =>
        obtain ⟨path, key, rfl, steps, again⟩ := explained
        exact Or.inr ⟨path, key, rfl, steps, again⟩
      | tooDeep => exact absurd explained (Nat.not_le.mpr spacious)
  · intro room order found
    obtain ⟨ordered, all⟩ := Definitions.orderWithin_ok (placingOrder_eq_ok.mp found)
    refine ⟨ordered.nodup, all, ?_⟩
    rintro before key after rfl
    have bases : ∀ base, definitions.Depends key base → base ∈ before :=
      fun base depends => ordered.base_before depends
    refine ⟨bases, ?_⟩
    intro easter placed filled
    have solves := place_ok ordered.front filled
    have present := fun base depends => solves.find?_of_mem (bases base depends)
    exact ⟨present, placeNext_failsOnly ((all key).mp (by simp)) present⟩
  · intro room table built
    obtain ⟨easter, order, sunday, ordered, all, solves⟩ := buildWithin_ok built
    rw [solves.keys_eq]
    refine ⟨ordered.nodup, all, easter, sunday, ?_⟩
    exact fun key anchor defined =>
      solves.resolved key ((all key).mpr (Keyed.mem_keys_of_find? defined)) anchor defined

def feastFirst : Definitions :=
  [([.char 'f'], .anchorOffset [.char 'e'] 3), ([.char 'e'], .easterOffset 0 [])]

def circle : Definitions :=
  [([.char 'a'], .anchorOffset [.char 'b'] 1), ([.char 'b'], .anchorOffset [.char 'a'] 1)]

theorem placingOrder_feastFirst :
    feastFirst.length < 3 ∧ placingOrder 3 2025 feastFirst = .ok [[.char 'e'], [.char 'f']] ∧
      feastFirst.Closed ∧ feastFirst.Acyclic ∧
      (∃ table, buildWithin 3 (.int 2025) feastFirst = .ok table ∧
        ∃ easter date, Easter.ofYear (.int 2025) = .ok easter ∧
          table.find? [.char 'f'] = some date ∧
          (Anchor.anchorOffset [.char 'e'] 3).resolve 2025 easter table.dates = .ok date) ∧
      circle.length < 3 ∧ ∃ failure, placingOrder 3 2025 circle = .error failure ∧
        ∃ path key, failure =
            .fault { cause := .invalid (.cycle (path ++ [key])), year := some (.int 2025) } ∧
          (path ++ [key]).IsChain circle.Depends ∧ key ∈ path := by
  have found : placingOrder 3 2025 feastFirst = .ok [[.char 'e'], [.char 'f']] := rfl
  obtain ⟨table, built⟩ : ∃ table, buildWithin 3 (.int 2025) feastFirst = .ok table := ⟨_, rfl⟩
  have refused : placingOrder 3 2025 circle = .error (.fault {
      cause := .invalid (.cycle [[.char 'a'], [.char 'b'], [.char 'a']])
      year := some (.int 2025) }) := rfl
  obtain ⟨closed, acyclic⟩ := ((placingOrder_exact 2025 feastFirst).1 3 (by decide)).1.mp ⟨_, found⟩
  obtain ⟨-, -, easter, sunday, resolved⟩ := (placingOrder_exact 2025 feastFirst).2.2 3 table built
  obtain ⟨date, placed, reckoned⟩ := resolved [.char 'f'] _ rfl
  refine ⟨by decide, found, closed, acyclic, ⟨table, built, easter, date, sunday, placed, reckoned⟩,
    by decide, _, refused, ?_⟩
  rcases ((placingOrder_exact 2025 circle).1 3 (by decide)).2 _ refused with undefined | walk
  · obtain ⟨key, other, -⟩ := undefined
    cases other
  · exact walk

end AnchorTable

end FeastCalendar
