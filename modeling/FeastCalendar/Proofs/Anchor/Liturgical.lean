import Mathlib.Data.List.Infix
import Mathlib.Data.Set.Card
import FeastCalendar.Proofs.Anchor.Builtin

/-!
The order of the liturgical year. Three Sundays decide the dates of the anchors, and they lie in
narrow bounds: Easter from 22 March to 25 April, the Baptism of the Lord in the week after 6 January
and the first Sunday of Advent in the week from 27 November on. So the anchors follow each other in
the same order in every year.
-/

namespace FeastCalendar
open Civil (Date dayNumber marchFirst weekdayNames)
open Definitions (easterCycle fixedDays)

/-- The Sundays from which the anchors of a year are reckoned. -/
structure YearSundays (year : Int) where
  easter : Int
  baptism : Int
  advent : Int
  easter_bounds : marchFirst year + 21 ≤ easter ∧ easter ≤ marchFirst year + 55
  easter_sunday : easter % 7 = 0
  baptism_bounds : dayNumber year 1 6 < baptism ∧ baptism ≤ dayNumber year 1 6 + 7
  baptism_sunday : baptism % 7 = 0
  advent_bounds : dayNumber year 11 27 ≤ advent ∧ advent ≤ dayNumber year 11 27 + 6
  advent_sunday : advent % 7 = 0

def liturgicalOrder : List String := [
  "mary_mother_of_god", "epiphany", "baptism_of_the_lord", "shrove_tuesday", "ash_wednesday",
  "palm_sunday", "holy_thursday", "good_friday", "holy_saturday", "easter", "divine_mercy_sunday",
  "ascension_thursday", "ascension_sunday", "pentecost", "trinity_sunday", "corpus_christi",
  "corpus_christi_sunday", "sacred_heart", "immaculate_heart", "assumption", "all_saints",
  "christ_king", "advent_1", "immaculate_conception", "christmas_eve", "christmas", "holy_family"]

namespace YearSundays

variable {year : Int} (sundays : YearSundays year)

def searched : List (String × Int) := [
  ("holy_family", AnchorTable.familyDay year), ("baptism_of_the_lord", sundays.baptism),
  ("advent_1", sundays.advent), ("christ_king", sundays.advent - 7)]

def placements : List (String × Int) :=
  easterCycle.map (fun entry => (entry.1, sundays.easter + entry.2)) ++
    fixedDays.map (fun entry => (entry.1, dayNumber year entry.2.1 entry.2.2)) ++ sundays.searched

def cycleOrder : List (String × Int) := [
  ("shrove_tuesday", -47), ("ash_wednesday", -46), ("palm_sunday", -7), ("holy_thursday", -3),
  ("good_friday", -2), ("holy_saturday", -1), ("easter", 0), ("divine_mercy_sunday", 7),
  ("ascension_thursday", 39), ("ascension_sunday", 42), ("pentecost", 49), ("trinity_sunday", 56),
  ("corpus_christi", 60), ("corpus_christi_sunday", 63), ("sacred_heart", 68),
  ("immaculate_heart", 69)]

def chain : List (String × Int) :=
  [("mary_mother_of_god", dayNumber year 1 1), ("epiphany", dayNumber year 1 6),
    ("baptism_of_the_lord", sundays.baptism)] ++
  cycleOrder.map (fun entry => (entry.1, sundays.easter + entry.2)) ++
  [("assumption", dayNumber year 8 15), ("all_saints", dayNumber year 11 1),
    ("christ_king", sundays.advent - 7), ("advent_1", sundays.advent),
    ("immaculate_conception", dayNumber year 12 8), ("christmas_eve", dayNumber year 12 24),
    ("christmas", dayNumber year 12 25), ("holy_family", AnchorTable.familyDay year)]

theorem map_fst_chain : sundays.chain.map Prod.fst = liturgicalOrder := rfl

theorem forall_placements_iff {holds : String × Int → Prop} :
    (∀ entry ∈ sundays.placements, holds entry) ↔
      (∀ entry ∈ easterCycle, holds (entry.1, sundays.easter + entry.2)) ∧
        (∀ entry ∈ fixedDays, holds (entry.1, dayNumber year entry.2.1 entry.2.2)) ∧
        ∀ entry ∈ sundays.searched, holds entry := by
  rw [placements, List.append_assoc, List.forall_mem_append, List.forall_mem_append,
    List.forall_mem_map, List.forall_mem_map]

theorem chain_subset : ∀ entry ∈ sundays.chain, entry ∈ sundays.placements := by
  obtain ⟨cycle, fixed, searched⟩ := sundays.forall_placements_iff.mp
    fun entry (member : entry ∈ sundays.placements) => member
  have known : ∀ entry ∈ cycleOrder, entry ∈ easterCycle := by decide
  rw [chain, List.forall_mem_append, List.forall_mem_append, List.forall_mem_map]
  simp only [List.forall_mem_cons, List.not_mem_nil, false_implies, implies_true, and_true]
  refine ⟨⟨⟨?_, ?_, ?_⟩, ?_⟩, ?_, ?_, ?_, ?_, ?_, ?_, ?_, ?_⟩
  · exact fixed ("mary_mother_of_god", 1, 1) (by decide)
  · exact fixed ("epiphany", 1, 6) (by decide)
  · exact searched _ (.tail _ (.head _))
  · exact fun entry listed => cycle entry (known entry listed)
  · exact fixed ("assumption", 8, 15) (by decide)
  · exact fixed ("all_saints", 11, 1) (by decide)
  · exact searched _ (.tail _ (.tail _ (.tail _ (.head _))))
  · exact searched _ (.tail _ (.tail _ (.head _)))
  · exact fixed ("immaculate_conception", 12, 8) (by decide)
  · exact fixed ("christmas_eve", 12, 24) (by decide)
  · exact fixed ("christmas", 12, 25) (by decide)
  · exact searched _ (.head _)

theorem chain_ascends :
    sundays.chain.Pairwise fun earlier later => earlier.2 < later.2 := by
  obtain ⟨easterLow, easterHigh⟩ := sundays.easter_bounds
  obtain ⟨baptismLow, baptismHigh⟩ := sundays.baptism_bounds
  obtain ⟨adventLow, adventHigh⟩ := sundays.advent_bounds
  have january := Civil.dayNumber_january year
  have first := january 1
  have sixth := january 6
  have august : dayNumber year 8 15 = marchFirst year + 153 + 15 - 1 := rfl
  have saints : dayNumber year 11 1 = marchFirst year + 245 + 1 - 1 := rfl
  have november : dayNumber year 11 27 = marchFirst year + 245 + 27 - 1 := rfl
  have eighth : dayNumber year 12 8 = marchFirst year + 275 + 8 - 1 := rfl
  have eve : dayNumber year 12 24 = marchFirst year + 275 + 24 - 1 := rfl
  have christmas : dayNumber year 12 25 = marchFirst year + 275 + 25 - 1 := rfl
  rw [← List.pairwise_map, ← List.isChain_iff_pairwise]
  simp only [chain, cycleOrder, List.map_cons, List.map_nil, List.cons_append, List.nil_append,
    List.isChain_cons_cons, List.isChain_singleton, and_true]
  have family := AnchorTable.familyDay_bounds year
  split at first <;> omega

/-- A table that places the anchors as the Sundays of its year say, and no others. -/
structure Places (table : AnchorTable) : Prop where
  placed : ∀ entry ∈ sundays.placements,
    ∃ date, table.find? entry.1 = some date ∧ date.number = entry.2
  only : ∀ {key : Text} {date : Date}, table.find? key = some date →
    ∃ name : String, key = name ∧ (name, date.number) ∈ sundays.placements

theorem exists_places {table : AnchorTable} (held : 1 ≤ year ∧ year ≤ 9999)
    (built : AnchorTable.builtin (.int year) = .ok table) :
    ∃ sundays : YearSundays year, sundays.Places table := by
  obtain ⟨easter, baptism, advent, king, sunday, cycle, fixed,
    ⟨baptismFound, baptismLow, baptismHigh, baptismSunday⟩,
    ⟨adventFound, adventLow, adventHigh, adventSunday⟩, kingFound, kingNumber⟩ :=
    AnchorTable.dates_of_builtin held built
  obtain ⟨family, familyFound, familyNumber⟩ := AnchorTable.family_of_builtin held built
  obtain ⟨easterLow, easterHigh, easterSunday⟩ := Easter.sunday_number held sunday
  let sundays : YearSundays year := {
    easter := easter.number, baptism := baptism.number, advent := advent.number
    easter_bounds := ⟨easterLow, easterHigh⟩, easter_sunday := easterSunday
    baptism_bounds := ⟨baptismLow, baptismHigh⟩, baptism_sunday := baptismSunday
    advent_bounds := ⟨adventLow, adventHigh⟩, advent_sunday := adventSunday }
  have placed : ∀ entry ∈ sundays.placements,
      ∃ date, table.find? entry.1 = some date ∧ date.number = entry.2 := by
    rw [forall_placements_iff]
    refine ⟨cycle, fixed, ?_⟩
    simp only [searched, List.forall_mem_cons, List.not_mem_nil, false_implies, implies_true,
      and_true]
    exact ⟨⟨family, familyFound, familyNumber⟩, ⟨baptism, baptismFound, rfl⟩,
      ⟨advent, adventFound, rfl⟩, king, kingFound, kingNumber⟩
  refine ⟨sundays, placed, ?_⟩
  intro key date found
  have known : key ∈ sundays.placements.map fun entry => Text.ofString entry.1 :=
    AnchorTable.mem_keys_of_builtin built found
  obtain ⟨⟨name, number⟩, member, rfl⟩ := List.mem_map.mp known
  obtain ⟨own, ownFound, rfl⟩ := placed _ member
  cases found.symm.trans ownFound
  exact ⟨name, rfl, member⟩

theorem placements_bounds : ∀ entry ∈ sundays.placements,
    dayNumber year 1 1 ≤ entry.2 ∧ entry.2 ≤ dayNumber year 12 31 := by
  obtain ⟨easterLow, easterHigh⟩ := sundays.easter_bounds
  obtain ⟨baptismLow, baptismHigh⟩ := sundays.baptism_bounds
  obtain ⟨adventLow, adventHigh⟩ := sundays.advent_bounds
  have first := Civil.dayNumber_january year 1
  have sixth := Civil.dayNumber_january year 6
  have november : dayNumber year 11 27 = marchFirst year + 245 + 27 - 1 := rfl
  have christmas : dayNumber year 12 25 = marchFirst year + 275 + 25 - 1 := rfl
  have last : dayNumber year 12 31 = marchFirst year + 275 + 31 - 1 := rfl
  rw [forall_placements_iff]
  refine ⟨?_, ?_, ?_⟩
  · intro entry listed
    have near := AnchorTable.easterCycle_bounds entry listed
    simp only
    split at first <;> omega
  · intro entry listed
    obtain ⟨months, days⟩ := AnchorTable.fixedDays_bounds entry listed
    have common := Civil.monthLength_common_le year entry.2.1
    exact Date.dayNumber_year_bounds months ⟨days.1, by omega⟩
  · have family := AnchorTable.familyDay_bounds year
    simp only [searched, List.forall_mem_cons, List.not_mem_nil, false_implies, implies_true,
      and_true]
    split at first <;> omega

theorem weekday_of_placements : ∀ entry ∈ sundays.placements, ∀ weekday ∈ weekdayNames.zipIdx,
    Text.ofString weekday.1 <:+: Text.ofString entry.1 → entry.2 % 7 = weekday.2 := by
  have sunday := sundays.easter_sunday
  rw [forall_placements_iff]
  refine ⟨?_, ?_, ?_⟩
  · have inCycle : ∀ entry ∈ easterCycle, ∀ weekday ∈ weekdayNames.zipIdx,
        Text.ofString weekday.1 <:+: Text.ofString entry.1 → entry.2 % 7 = weekday.2 := by
      decide +kernel
    intro entry listed weekday known named
    have own := inCycle entry listed weekday known named
    simp only
    omega
  · have unnamed : ∀ entry ∈ fixedDays, ∀ weekday ∈ weekdayNames.zipIdx,
        ¬Text.ofString weekday.1 <:+: Text.ofString entry.1 := by
      decide +kernel
    exact fun entry listed weekday known named => absurd named (unnamed entry listed weekday known)
  · have unnamed : ∀ name ∈ ["holy_family", "baptism_of_the_lord", "advent_1", "christ_king"],
        ∀ weekday ∈ weekdayNames.zipIdx, ¬Text.ofString weekday.1 <:+: Text.ofString name := by
      decide +kernel
    intro entry listed weekday known named
    have name : entry.1 ∈ sundays.searched.map Prod.fst := List.mem_map_of_mem listed
    exact absurd named (unnamed entry.1 name weekday known)

end YearSundays

namespace Civil.Date

def sundaysFrom (first stop : Date) : Set Date :=
  {date | date.weekday = 0 ∧ first ≤ date ∧ date < stop}

variable {first stop : Date} {weeks : Nat}

theorem image_number_sundaysFrom (sunday : first.weekday = 0)
    (spans : first.number + 7 * weeks < stop.number + 7 ∧
      stop.number ≤ first.number + 7 * weeks) :
    Date.number '' sundaysFrom first stop =
      (fun week : Nat => first.number + 7 * (week : Int)) '' Finset.range weeks := by
  have firstSunday : first.number % 7 = 0 := sunday
  ext number
  constructor
  · rintro ⟨date, ⟨isSunday, after, before⟩, rfl⟩
    have weekday : date.number % 7 = 0 := isSunday
    rw [le_iff] at after
    rw [lt_iff] at before
    refine ⟨((date.number - first.number) / 7).toNat, ?_, ?_⟩
    · rw [Finset.mem_coe, Finset.mem_range]
      omega
    · simp only
      omega
  · rintro ⟨week, fits, rfl⟩
    rw [Finset.mem_coe, Finset.mem_range] at fits
    have low := first.one_le
    have high := stop.le_last
    obtain ⟨date, -, number⟩ := first.exists_add? (7 * week) ⟨by omega, by omega⟩
    refine ⟨date, ⟨?_, ?_, ?_⟩, number⟩
    · unfold weekday
      omega
    · rw [le_iff]
      omega
    · rw [lt_iff]
      omega

theorem ncard_sundaysFrom (sunday : first.weekday = 0)
    (spans : first.number + 7 * weeks < stop.number + 7 ∧
      stop.number ≤ first.number + 7 * weeks) : (sundaysFrom first stop).ncard = weeks := by
  have distinct : Function.Injective fun week : Nat => first.number + 7 * (week : Int) := by
    intro week other same
    simp only at same
    omega
  have injective : Function.Injective Date.number := fun _ _ => eq_of_number
  calc (sundaysFrom first stop).ncard
      = (Date.number '' sundaysFrom first stop).ncard :=
        (Set.ncard_image_of_injective _ injective).symm
    _ = (Finset.range weeks : Set Nat).ncard := by
        rw [image_number_sundaysFrom sunday spans, Set.ncard_image_of_injective _ distinct]
    _ = weeks := by
        rw [Set.ncard_coe_finset, Finset.card_range]

def InOctave (year : Int) (date : Date) : Prop :=
  date.year = year ∧ date.month = 12 ∧ 26 ≤ date.day

theorem inOctave_iff {year : Int} (held : 1 ≤ year ∧ year ≤ 9999) (date : Date) :
    InOctave year date ↔
      dayNumber year 12 25 < date.number ∧ date.number ≤ dayNumber year 12 25 + 6 := by
  have december := Civil.dayNumber_eq_first year 12
  have christmas := december 25
  have length : Civil.monthLength year 12 = 31 := rfl
  constructor
  · rintro ⟨rfl, month, late⟩
    have number := date.dayNumber_parts
    have days := date.day_bounds
    rw [month] at number days
    rw [december] at number
    omega
  · rintro ⟨after, before⟩
    have day := december (date.number - dayNumber year 12 25 + 25)
    obtain ⟨own, named, number⟩ := @exists_ofYmd year 12 (date.number - dayNumber year 12 25 + 25)
      held (by decide) ⟨by omega, by omega⟩
    have same : own = date := eq_of_number (by omega)
    obtain ⟨ownYear, month, ownDay⟩ := parts_of_ofYmd named
    rw [same] at ownYear month ownDay
    exact ⟨ownYear, month, by omega⟩

theorem weekdayName_of_mem {name : String} {index : Nat}
    (listed : (name, index) ∈ weekdayNames.zipIdx) {date : Date} (weekday : date.weekday = index) :
    date.weekdayName = name := by
  rw [weekdayName, weekday, Int.toNat_natCast, List.getD_eq_getElem?_getD,
    List.mem_zipIdx_iff_getElem?.mp listed]
  rfl

end Civil.Date

namespace AnchorTable

variable {year : Int} {table : AnchorTable}

def Precedes (table : AnchorTable) (earlier later : String) : Prop :=
  ∃ date next, table.find? earlier = some date ∧ table.find? later = some next ∧ date < next

/-- The anchors of a year as the liturgical year has them. -/
structure Liturgical (year : Int) (table : AnchorTable) : Prop where
  ascends : liturgicalOrder.Pairwise table.Precedes
  closes : ∃ family eve, table.find? "holy_family" = some family ∧
    table.find? "new_years_eve" = some eve ∧ family ≤ eve
  weekdays : ∀ key date, table.find? key = some date → ∀ name ∈ weekdayNames,
    Text.ofString name <:+: key → date.weekdayName = name
  baptism : ∃ baptism, table.find? "baptism_of_the_lord" = some baptism ∧
    Easter.IsFirstSundayAfter (dayNumber year 1 6) baptism.number
  advent : ∃ advent christmas, table.find? "advent_1" = some advent ∧
    Date.ofYmd year 12 25 = .ok christmas ∧ advent.weekday = 0 ∧
    (Date.sundaysFrom advent christmas).ncard = 4
  /-- The Sunday after Christmas, if its year still has it. -/
  family : ∃ family christmas, table.find? "holy_family" = some family ∧
    Date.ofYmd year 12 25 = .ok christmas ∧
    (∀ date, Date.InOctave year date → date.weekday = 0 → family = date) ∧
    ((∀ date, Date.InOctave year date → date.weekday ≠ 0) ↔ christmas.weekday = 0) ∧
    (christmas.weekday = 0 → Date.ofYmd year 12 30 = .ok family)

theorem exists_christmas (held : 1 ≤ year ∧ year ≤ 9999) :
    ∃ christmas, Date.ofYmd year 12 25 = .ok christmas ∧
      christmas.number = dayNumber year 12 25 :=
  Date.exists_ofYmd held (by decide) ⟨by decide, (by decide : (25 : Int) ≤ 31)⟩

theorem family_of_octave (held : 1 ≤ year ∧ year ≤ 9999) {family christmas : Date}
    (familyNumber : family.number = familyDay year)
    (christmasNumber : christmas.number = dayNumber year 12 25) :
    (∀ date, Date.InOctave year date → date.weekday = 0 → family = date) ∧
      ((∀ date, Date.InOctave year date → date.weekday ≠ 0) ↔ christmas.weekday = 0) ∧
      (christmas.weekday = 0 → Date.ofYmd year 12 30 = .ok family) := by
  have bounds := familyDay_bounds year
  unfold Date.weekday
  rw [← familyNumber, ← christmasNumber] at bounds
  simp only [familyDay, ← christmasNumber] at familyNumber
  simp only [Date.inOctave_iff held, ← christmasNumber]
  refine ⟨?_, ⟨?_, ?_⟩, ?_⟩
  · rintro date ⟨after, before⟩ sunday
    apply Date.eq_of_number
    split at familyNumber <;> omega
  · intro none
    by_contra weekday
    rw [if_neg weekday] at familyNumber
    exact none family bounds (by omega)
  · rintro sunday date ⟨after, before⟩
    omega
  · intro sunday
    rw [if_pos sunday] at familyNumber
    obtain ⟨date, named, number⟩ :=
      @Date.exists_ofYmd year 12 30 held (by decide) ⟨by decide, (by decide : (30 : Int) ≤ 31)⟩
    have december := Civil.dayNumber_eq_first year 12
    rw [december] at number christmasNumber
    rw [named, Date.eq_of_number (by omega : date.number = family.number)]

end AnchorTable

namespace YearSundays.Places

variable {year : Int} {sundays : YearSundays year} {table : AnchorTable}

theorem ascends (places : sundays.Places table) : liturgicalOrder.Pairwise table.Precedes := by
  have inChain := fun entry listed => places.placed entry (sundays.chain_subset entry listed)
  rw [← sundays.map_fst_chain, List.pairwise_map]
  refine sundays.chain_ascends.imp_of_mem fun earlierListed laterListed ascends => ?_
  obtain ⟨date, found, number⟩ := inChain _ earlierListed
  obtain ⟨next, nextFound, nextNumber⟩ := inChain _ laterListed
  refine ⟨date, next, found, nextFound, ?_⟩
  rw [Date.lt_iff]
  omega

theorem exists_family (places : sundays.Places table) :
    ∃ family, table.find? "holy_family" = some family ∧
      family.number = AnchorTable.familyDay year :=
  (sundays.forall_placements_iff.mp places.placed).2.2 _ (.head _)

theorem exists_eve (places : sundays.Places table) :
    ∃ eve, table.find? "new_years_eve" = some eve ∧ eve.number = dayNumber year 12 31 :=
  (sundays.forall_placements_iff.mp places.placed).2.1 ("new_years_eve", 12, 31) (by decide)

theorem weekdayName_eq (places : sundays.Places table) {key : Text} {date : Date}
    (found : table.find? key = some date) {name : String} (known : name ∈ weekdayNames)
    (inName : Text.ofString name <:+: key) : date.weekdayName = name := by
  obtain ⟨own, rfl, placed⟩ := places.only found
  obtain ⟨index, fits, rfl⟩ := List.getElem_of_mem known
  have numbered : (weekdayNames[index], index) ∈ weekdayNames.zipIdx :=
    List.mem_zipIdx_iff_getElem?.mpr (List.getElem?_eq_getElem fits)
  exact Date.weekdayName_of_mem numbered
    (sundays.weekday_of_placements _ placed _ numbered inName)

theorem exists_baptism (places : sundays.Places table) :
    ∃ baptism, table.find? "baptism_of_the_lord" = some baptism ∧
      Easter.IsFirstSundayAfter (dayNumber year 1 6) baptism.number := by
  obtain ⟨baptism, found, number⟩ :=
    (sundays.forall_placements_iff.mp places.placed).2.2 _ (.tail _ (.head _))
  obtain ⟨after, before⟩ := sundays.baptism_bounds
  have sunday := sundays.baptism_sunday
  simp only at number
  rw [← number] at after before sunday
  exact ⟨baptism, found, after, sunday, fun other later otherSunday => by omega⟩

theorem exists_advent (places : sundays.Places table) {christmas : Date}
    (number : christmas.number = dayNumber year 12 25) :
    ∃ advent, table.find? "advent_1" = some advent ∧ advent.weekday = 0 ∧
      (Date.sundaysFrom advent christmas).ncard = 4 := by
  obtain ⟨advent, found, adventNumber⟩ :=
    (sundays.forall_placements_iff.mp places.placed).2.2 _ (.tail _ (.tail _ (.head _)))
  have bounds := sundays.advent_bounds
  have sunday : advent.number % 7 = 0 := adventNumber ▸ sundays.advent_sunday
  have november : dayNumber year 11 27 = marchFirst year + 245 + 27 - 1 := rfl
  have december : dayNumber year 12 25 = marchFirst year + 275 + 25 - 1 := rfl
  refine ⟨advent, found, sunday, Date.ncard_sundaysFrom sunday ?_⟩
  simp only at adventNumber
  omega

end YearSundays.Places

namespace AnchorTable

variable {year : Int} {table : AnchorTable}

theorem liturgical_of_builtin (held : 1 ≤ year ∧ year ≤ 9999)
    (built : builtin (.int year) = .ok table) : Liturgical year table := by
  obtain ⟨sundays, places⟩ := YearSundays.exists_places held built
  obtain ⟨christmas, named, christmasNumber⟩ := exists_christmas held
  obtain ⟨family, familyFound, familyNumber⟩ := places.exists_family
  obtain ⟨eve, eveFound, eveNumber⟩ := places.exists_eve
  obtain ⟨advent, adventFound, adventSunday, four⟩ := places.exists_advent christmasNumber
  refine ⟨places.ascends, ⟨family, eve, familyFound, eveFound, ?_⟩, ?_, places.exists_baptism,
    ⟨advent, christmas, adventFound, named, adventSunday, four⟩,
    ⟨family, christmas, familyFound, named, family_of_octave held familyNumber christmasNumber⟩⟩
  · have bounds := familyDay_bounds year
    have december : dayNumber year 12 25 = marchFirst year + 275 + 25 - 1 := rfl
    have last : dayNumber year 12 31 = marchFirst year + 275 + 31 - 1 := rfl
    rw [Date.le_iff]
    omega
  · exact fun key date found name known inName => places.weekdayName_eq found known inName

theorem year_of_builtin (held : 1 ≤ year ∧ year ≤ 9999)
    (built : builtin (.int year) = .ok table) {key : Text} {date : Date}
    (found : table.find? key = some date) : date.year = year := by
  obtain ⟨sundays, places⟩ := YearSundays.exists_places held built
  obtain ⟨name, -, placed⟩ := places.only found
  exact Date.year_eq_iff.mpr (sundays.placements_bounds _ placed)

end AnchorTable

end FeastCalendar
