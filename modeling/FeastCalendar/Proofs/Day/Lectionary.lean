import FeastCalendar.Proofs.Anchor.Closure
import FeastCalendar.Proofs.Observance.Table
import FeastCalendar.Proofs.Observance.Turns
import FeastCalendar.Proofs.Session

/-!
The lectionary of a day against its season. The season is told by the anchors registered, but the
lectionary always by the first Sunday of Advent in the built-in dictionary. The two agree on a day
unless it lies between that Sunday and the one registered.
-/

namespace FeastCalendar
open Civil (Date)

section Seasons

variable {anchors : Anchors} {advent christmas date : Date}

/-- Advent runs from its first Sunday up to Christmas, wherever other seasons begin. -/
theorem Season.ofDate_eq_advent_iff {season : Season}
    (adventFound : anchors.find? "advent_1" = some advent)
    (christmasFound : anchors.find? "christmas" = some christmas)
    (told : ofDate date anchors = .ok season) :
    season = .advent ↔ advent ≤ date ∧ date < christmas := by
  rw [ofDate, Anchors.get_eq_ok.mpr christmasFound, Anchors.get_eq_ok.mpr adventFound] at told
  simp only [Attempt.ok_bind] at told
  have split : date < christmas ↔ ¬christmas ≤ date := Int.not_le.symm
  rw [split]
  by_cases late : christmas ≤ date
  · rw [if_pos late] at told
    cases told
    simp [late]
  · rw [if_neg late] at told
    by_cases begun : advent ≤ date
    · rw [if_pos begun] at told
      cases told
      simp [late, begun]
    · rw [if_neg begun] at told
      have other : season ≠ .advent := by
        rintro rfl
        obtain ⟨pentecost, -, told⟩ := Attempt.bind_eq_ok.mp told
        split at told
        · cases told
        obtain ⟨easter, -, told⟩ := Attempt.bind_eq_ok.mp told
        split at told
        · cases told
        obtain ⟨lent, -, told⟩ := Attempt.bind_eq_ok.mp told
        split at told
        · cases told
        obtain ⟨baptism, -, told⟩ := Attempt.bind_eq_ok.mp told
        split at told <;> cases told
      simp [begun, other]

theorem ObservanceTable.exists_advent {year : Json} {catalogue : List Celebration}
    {table : ObservanceTable} (built : build year anchors catalogue = .ok table) :
    ∃ advent christmas, anchors.find? "advent_1" = some advent ∧
      anchors.find? "christmas" = some christmas := by
  obtain ⟨emissions, emits, -⟩ := build_eq_ok.mp built
  obtain ⟨markers, -, -, -, marked, -⟩ := Emission.ofYear_eq_ok.mp emits
  obtain ⟨advent, adventFound, christmas, christmasFound, -⟩ := by
    simpa only [Emission.seasonMarkers, Attempt.bind_eq_ok, Anchors.get_eq_ok] using marked
  exact ⟨advent, christmas, adventFound, christmasFound⟩

end Seasons

namespace Attribute

def readings (year : Int) : Keyed Text Json := [
  ("liturgical_year", .int year),
  ("sunday_cycle", .str (sundayCycle year)),
  ("weekday_cycle", .str (weekdayCycle year))]

theorem eq_of_readings_eq {year other : Int} (same : readings year = readings other) :
    year = other := by
  simp only [readings, List.cons.injEq, Prod.mk.injEq, true_and, Json.int.injEq] at same
  exact same.1

theorem lectionaryValues_eq_ok {builtin : Definitions} {day : Day} {values : Keyed Text Json} :
    lectionaryValues builtin day = .ok values ↔
      ∃ table advent, AnchorTable.build (.int day.date.year) builtin = .ok table ∧
        table.find? "advent_1" = some advent ∧
        readings (liturgicalYear day.date advent) = values := by
  have get : ∀ (table : AnchorTable) date,
      table.get "advent_1" = .ok date ↔ table.find? "advent_1" = some date :=
    fun table date => @Anchors.get_eq_ok (.table table) "advent_1" date
  simp only [lectionaryValues, Attempt.bind_eq_ok, Attempt.pure_eq_ok, get, readings]
  constructor
  · rintro ⟨table, built, advent, found, same⟩
    exact ⟨table, advent, built, found, same⟩
  · rintro ⟨table, advent, built, found, same⟩
    exact ⟨table, built, advent, found, same⟩

theorem liturgicalYear_eq_iff {date advent other : Date} :
    liturgicalYear date other = liturgicalYear date advent ↔ (other ≤ date ↔ advent ≤ date) := by
  have differs : date.year - 1 ≠ date.year := by omega
  unfold liturgicalYear
  by_cases begun : advent ≤ date
  · by_cases otherBegun : other ≤ date
    · simp [begun, otherBegun]
    · simp [begun, otherBegun, differs]
  · by_cases otherBegun : other ≤ date
    · simp [begun, otherBegun, differs.symm]
    · simp [begun, otherBegun]

end Attribute

theorem Attributes.compute_eq_ok {attributes : Attributes} {name : Text} {kind : Attribute}
    {builtin : Definitions} {day : Day} {values : Keyed Text Json}
    (found : Keyed.find? attributes name = some kind) :
    attributes.compute builtin day [name] = .ok values ↔
      ∃ own, kind.values builtin day = .ok own ∧ Keyed.putAll [] own = values := by
  simp only [compute, List.foldlM_cons, List.foldlM_nil, found, Attempt.bind_eq_ok,
    Attempt.pure_eq_ok, exists_eq_right]

namespace Almanac

variable {almanac : Almanac} {requests : List Request}

def Request.KeepsLectionary : Request → Prop
  | .registerAttribute name _ => name ≠ "lectionary"
  | _ => True

def HasLectionary (almanac : Almanac) : Prop :=
  Keyed.find? almanac.attributes "lectionary" = some .lectionary

theorem HasLectionary.handle (has : HasLectionary almanac) {request : Request}
    (keeps : request.KeepsLectionary) : HasLectionary (almanac.handle request).1 := by
  apply handle_holds has
  intro changed made
  cases request with
  | register name anchor overwrite =>
    obtain ⟨place, definitions, -, -, -, rfl⟩ := change_register_eq_ok.mp made
    exact has
  | registerAttribute name kind =>
    cases made
    exact (Keyed.find?_put_of_ne _ _ keeps.symm).trans has
  | setRegistry given =>
    cases given with
    | none => cases made; exact has
    | some registry => cases made; exact has
  | shareRegistry place =>
    cases made
    rw [share]
    split
    · exact has
    · exact has
  | _ =>
    cases made
    exact has

theorem HasLectionary.run (has : HasLectionary almanac)
    (keep : ∀ request ∈ requests, request.KeepsLectionary) :
    HasLectionary (almanac.run requests) := by
  -- On the requests, from any almanac that has it.
  induction requests generalizing almanac with
  | nil => exact has
  | cons request rest ih =>
    obtain ⟨first, later⟩ := List.forall_mem_cons.mp keep
    exact ih (has.handle first) later

theorem table_eq_ok {year : Json} {table : AnchorTable} : almanac.table year = .ok table ↔
    ∃ definitions, almanac.definitions? = some definitions ∧
      AnchorTable.build year definitions = .ok table := by
  simp only [Almanac.table, Attempt.bind_eq_ok, theRegistry_eq_ok]
  constructor
  · rintro ⟨registry, found, built⟩
    exact ⟨_, found, built⟩
  · rintro ⟨definitions, found, built⟩
    exact ⟨⟨definitions⟩, found, built⟩

variable {date : Date} {day : Day} {values : Keyed Text Json}

theorem day_eq_ok : almanac.day date = .ok day ↔
    ∃ table observances season, almanac.table (.int date.year) = .ok table ∧
      ObservanceTable.build (.int date.year) table Catalogue.builtin = .ok observances ∧
      Season.ofDate date table = .ok season ∧ ⟨date, some season, observances.on date⟩ = day := by
  simp only [Almanac.day, Day.ofTable, Attempt.bind_eq_ok, Attempt.pure_eq_ok]
  constructor
  · rintro ⟨table, own, observances, built, season, told, same⟩
    exact ⟨table, observances, season, own, built, told, same⟩
  · rintro ⟨table, observances, season, own, built, told, same⟩
    exact ⟨table, own, observances, built, season, told, same⟩

theorem HasLectionary.handle_day_eq_ok (has : HasLectionary almanac) :
    (almanac.handle (.day date ["lectionary"])).2 = .ok (.day day (some values)) ↔
      almanac.day date = .ok day ∧
        ∃ found, Attribute.lectionaryValues almanac.builtRegistry.definitions day = .ok found ∧
          Keyed.putAll [] found = values := by
  have named : (["lectionary"] : List Text).isEmpty = false := rfl
  show almanac.inquire (.day date ["lectionary"]) = _ ↔ _
  simp only [inquire, named, Attempt.bind_eq_ok, if_false, Attempt.pure_eq_ok,
    Attributes.compute_eq_ok has, Answer.day.injEq, Option.some.injEq, Bool.false_eq_true]
  constructor
  · rintro ⟨_, told, _, ⟨found, read, rfl⟩, rfl, rfl⟩
    exact ⟨told, found, read, rfl⟩
  · rintro ⟨told, found, read, rfl⟩
    exact ⟨day, told, _, ⟨found, read, rfl⟩, rfl, rfl⟩

/-- In every session the lectionary reckons from the first Sunday of Advent in the built-in dictionary,
while the season is Advent from the one registered. So the liturgical year is that of the day's own
calendar unless the day lies between the two Sundays, and always if both are defined alike and
depend on no other anchor, or if the registry shares the built-in dictionary. A session in which no
registry does leaves the built-in Sunday as it was. -/
theorem lectionary_of_day (keep : ∀ request ∈ requests, request.KeepsLectionary)
    (answered : ((initial.run requests).handle (.day date ["lectionary"])).2 =
      .ok (.day day (some values))) :
    ∃ definitions table advent christmas own reckoned,
      (initial.run requests).definitions? = some definitions ∧
      AnchorTable.build (.int date.year) definitions = .ok table ∧
      table.find? "advent_1" = some advent ∧ table.find? "christmas" = some christmas ∧
      (day.season = some .advent ↔ advent ≤ date ∧ date < christmas) ∧
      AnchorTable.build (.int date.year) (initial.run requests).builtRegistry.definitions = .ok own ∧
      own.find? "advent_1" = some reckoned ∧
      values = Attribute.readings (Attribute.liturgicalYear date reckoned) ∧
      (Attribute.liturgicalYear date reckoned = Attribute.liturgicalYear date advent ↔
        (reckoned ≤ date ↔ advent ≤ date)) ∧
      (∀ anchor, anchor.dependsOn = [] → Keyed.find? definitions "advent_1" = some anchor →
        Keyed.find? (initial.run requests).builtRegistry.definitions "advent_1" = some anchor →
        reckoned = advent) ∧
      ((initial.run requests).registry = some builtinPlace → reckoned = advent) ∧
      (.shareRegistry builtinPlace ∉ requests →
        AnchorTable.builtin (.int date.year) = .ok own ∧
        (Keyed.find? definitions "advent_1" = Keyed.find? Definitions.builtin "advent_1" →
          reckoned = advent)) := by
  have has : HasLectionary (initial.run requests) := HasLectionary.run rfl keep
  obtain ⟨told, found, read, rfl⟩ := has.handle_day_eq_ok.mp answered
  obtain ⟨table, observances, season, tabled, built, seasoned, rfl⟩ := day_eq_ok.mp told
  obtain ⟨definitions, registered, tableBuilt⟩ := table_eq_ok.mp tabled
  obtain ⟨advent, christmas, adventFound, christmasFound⟩ := ObservanceTable.exists_advent built
  obtain ⟨own, reckoned, ownBuilt, reckonedFound, rfl⟩ := Attribute.lectionaryValues_eq_ok.mp read
  have alike : ∀ anchor, anchor.dependsOn = [] → Keyed.find? definitions "advent_1" = some anchor →
      Keyed.find? (initial.run requests).builtRegistry.definitions "advent_1" = some anchor →
      reckoned = advent := by
    intro anchor baseless defined ownDefined
    have same := AnchorTable.find?_eq_of_baseless ownBuilt tableBuilt ownDefined defined baseless
    rw [reckonedFound] at same
    exact Option.some.inj (same.trans adventFound)
  refine ⟨definitions, table, advent, christmas, own, reckoned, registered, tableBuilt, adventFound,
    christmasFound, ?_, ownBuilt, reckonedFound, rfl, Attribute.liturgicalYear_eq_iff, alike, ?_, ?_⟩
  · rw [Option.some.injEq]
    exact Season.ofDate_eq_advent_iff adventFound christmasFound seasoned
  · intro shared
    rw [definitions?, shared, Option.map_some, Option.some.injEq] at registered
    subst registered
    cases ownBuilt.symm.trans tableBuilt
    exact Option.some.inj (reckonedFound.symm.trans adventFound)
  · intro unshared
    have same : (initial.run requests).builtRegistry.definitions = Definitions.builtin :=
      congrArg Registry.definitions (apart_initial.run unshared).2
    have builtin : Keyed.find? Definitions.builtin "advent_1" =
        some (.weekdayAfter 11 27 0 true []) := by decide +kernel
    rw [same] at ownBuilt alike
    exact ⟨ownBuilt, fun defined => alike _ rfl (defined.trans builtin) builtin⟩

def earlyAdvent : List Request := [.register "advent_1" (.weekdayAfter 11 16 0 true []) true]

def thursday : Date := ⟨739575, by decide, by decide⟩

theorem season_earlyAdvent :
    ((initial.run earlyAdvent).day thursday).map Day.season = .ok (some .advent) := by
  decide +kernel

theorem keeps_earlyAdvent : ∀ request ∈ earlyAdvent, request.KeepsLectionary := by
  simp [earlyAdvent, Request.KeepsLectionary]

theorem exists_answer_earlyAdvent :
    ∃ day, (initial.run earlyAdvent).day thursday = .ok day ∧ day.season = some .advent ∧
      ((initial.run earlyAdvent).handle (.day thursday ["lectionary"])).2 =
        .ok (.day day (some (Attribute.readings 2024))) := by
  have season := season_earlyAdvent
  cases told : (initial.run earlyAdvent).day thursday with
  | error failure =>
    rw [told] at season
    cases season
  | ok day =>
    rw [told] at season
    have has : HasLectionary (initial.run earlyAdvent) := HasLectionary.run rfl keeps_earlyAdvent
    obtain ⟨_, _, _, -, -, -, rfl⟩ := day_eq_ok.mp told
    have held : 1 ≤ (2025 : Int) ∧ (2025 : Int) ≤ 9999 := by decide
    obtain ⟨own, ownBuilt⟩ := AnchorTable.exists_builtin held
    obtain ⟨-, -, reckoned, -, -, -, -, -, ⟨reckonedFound, late, -⟩, -⟩ :=
      AnchorTable.dates_of_builtin held ownBuilt
    -- The built-in Advent begins on 27 November at the earliest.
    have after : ¬reckoned ≤ thursday := by
      have november : Civil.dayNumber 2025 11 27 = 739582 := by decide
      rw [Date.le_iff, show thursday.number = 739575 from rfl]
      omega
    have year : Attribute.liturgicalYear thursday reckoned = 2024 := by
      rw [Attribute.liturgicalYear, if_neg after]
      rfl
    have unshared : .shareRegistry builtinPlace ∉ earlyAdvent := by simp [earlyAdvent]
    have builtin : (initial.run earlyAdvent).builtRegistry = builtinRegistry :=
      (apart_initial.run unshared).2
    refine ⟨_, rfl, Except.ok.inj season,
      has.handle_day_eq_ok.mpr ⟨told, Attribute.readings 2024, ?_, rfl⟩⟩
    rw [builtin, ← year]
    exact Attribute.lectionaryValues_eq_ok.mpr ⟨own, reckoned, ownBuilt, reckonedFound, rfl⟩

theorem lectionary_of_day_earlyAdvent :
    (∀ request ∈ earlyAdvent, request.KeepsLectionary) ∧
      ∃ day advent reckoned,
        ((initial.run earlyAdvent).handle (.day thursday ["lectionary"])).2 =
          .ok (.day day (some (Attribute.readings 2024))) ∧
        day.season = some .advent ∧ advent ≤ thursday ∧ thursday < reckoned := by
  obtain ⟨day, -, season, answered⟩ := exists_answer_earlyAdvent
  obtain ⟨definitions, table, advent, christmas, own, reckoned, -, -, -, -, inAdvent, -, -, read,
    -⟩ := lectionary_of_day keeps_earlyAdvent answered
  have year := Attribute.eq_of_readings_eq read
  refine ⟨keeps_earlyAdvent, day, advent, reckoned, answered, season, (inAdvent.mp season).1, ?_⟩
  by_contra notAfter
  have begun : reckoned ≤ thursday := Int.not_lt.mp notAfter
  rw [Attribute.liturgicalYear, if_pos begun] at year
  exact absurd year (by decide)

/-- What the lectionary says is not always reckoned from the anchors of the day. -/
theorem not_reckoned_by_registry :
    ¬∀ requests : List Request, (∀ request ∈ requests, request.KeepsLectionary) →
      ∀ date day values, ((initial.run requests).handle (.day date ["lectionary"])).2 =
          .ok (.day day (some values)) →
        ∀ table advent, (initial.run requests).table (.int date.year) = .ok table →
          table.find? "advent_1" = some advent →
          values = Attribute.readings (Attribute.liturgicalYear date advent) := by
  intro every
  obtain ⟨day, told, season, answered⟩ := exists_answer_earlyAdvent
  obtain ⟨table, observances, found, tabled, built, seasoned, rfl⟩ := day_eq_ok.mp told
  obtain ⟨advent, christmas, adventFound, christmasFound⟩ := ObservanceTable.exists_advent built
  obtain ⟨begun, -⟩ :=
    (Season.ofDate_eq_advent_iff adventFound christmasFound seasoned).mp (Option.some.inj season)
  have read :=
    every earlyAdvent keeps_earlyAdvent thursday _ _ answered table advent tabled adventFound
  rw [Attribute.liturgicalYear, if_pos begun] at read
  exact absurd (Attribute.eq_of_readings_eq read) (by decide)

end Almanac

end FeastCalendar
