import FeastCalendar.Observance.Catalogue
import FeastCalendar.Proofs.Observance.Turns

/-!
The Sundays of a year and their names. Between the Baptism of the Lord and Christmas each Sunday has
one name, which tells its season; the numbers in Ordinary Time run from two without a gap to the
Sunday before Advent.
-/

namespace FeastCalendar
open Civil (Date)
open Text (intText)

/-- The ids of Sundays and the seasons they name. -/
inductive SundayId : String → Season → Prop
  | ordinary (n : Int) : SundayId ("ordinary_sunday_" ++ intText n) .ordinaryTime
  | lent (n : Int) : SundayId ("lent_sunday_" ++ intText n) .lent
  | palm : SundayId "palm_sunday" .lent
  | easter : SundayId "easter_sunday" .easter
  | afterEaster (n : Int) (range : 2 ≤ n ∧ n ≤ 7) : SundayId ("easter_sunday_" ++ intText n) .easter
  | pentecost : SundayId "pentecost" .easter
  | advent (n : Int) : SundayId ("advent_sunday_" ++ intText n) .advent

namespace SundayId

def heads : List (String × Season) := [
  ("ordinary_sunday_", .ordinaryTime),
  ("lent_sunday_", .lent),
  ("palm_sunday", .lent),
  ("easter_sunday", .easter),
  ("pentecost", .easter),
  ("advent_sunday_", .advent)]

def seasonOf? (id : String) : Option Season :=
  (heads.find? fun head => head.1.toList.isPrefixOf id.toList).map Prod.snd

/-- Texts that differ somewhere, so that neither begins the other. -/
def Clash (left right : List Char) : Prop := ∃ pair ∈ left.zip right, pair.1 ≠ pair.2

instance (left right : List Char) : Decidable (Clash left right) :=
  inferInstanceAs (Decidable (∃ pair ∈ left.zip right, pair.1 ≠ pair.2))

theorem isPrefixOf_append_of_clash {left right : List Char} (clash : Clash left right)
    (tail : List Char) : left.isPrefixOf (right ++ tail) = false := by
  induction left generalizing right with
  | nil => simp [Clash] at clash
  | cons first rest ih =>
    cases right with
    | nil => simp [Clash] at clash
    | cons other others =>
      simp only [Clash, List.zip_cons_cons, List.mem_cons, exists_eq_or_imp] at clash
      rw [List.cons_append, List.isPrefixOf, Bool.and_eq_false_iff]
      rcases clash with here | later
      · exact Or.inl (by simpa using here)
      · exact Or.inr (ih later)

theorem isPrefixOf_append_self (text tail : String) :
    text.toList.isPrefixOf (text ++ tail).toList = true := by
  rw [String.toList_append]
  exact List.isPrefixOf_iff_prefix.mpr (List.prefix_append _ _)

theorem heads_clash : heads.Pairwise fun left right => Clash left.1.toList right.1.toList := by
  decide

theorem seasonOf?_append {head : String × Season} (listed : head ∈ heads) (tail : String) :
    seasonOf? (head.1 ++ tail) = some head.2 := by
  obtain ⟨before, after, split⟩ := List.append_of_mem listed
  have clash := heads_clash
  rw [split, List.pairwise_append] at clash
  have found : (heads.find? fun other => other.1.toList.isPrefixOf (head.1 ++ tail).toList) =
      some head := by
    rw [List.find?_eq_some_iff_append]
    refine ⟨isPrefixOf_append_self head.1 tail, before, after, split, fun other earlier => ?_⟩
    rw [String.toList_append,
      isPrefixOf_append_of_clash (clash.2.2 other earlier head (List.mem_cons_self ..))]
    rfl
  rw [seasonOf?, found]
  rfl

theorem seasonOf?_eq {id : String} {season : Season} (names : SundayId id season) :
    seasonOf? id = some season := by
  have known : ∀ (text : String) (season : Season) (tail : String), (text, season) ∈ heads →
      seasonOf? (text ++ tail) = some season := fun _ _ tail listed => seasonOf?_append listed tail
  cases names with
  | ordinary n => exact known _ _ _ (by decide)
  | lent n => exact known _ _ _ (by decide)
  | palm => decide
  | easter => decide
  | afterEaster n range =>
    have longer : "easter_sunday_" = "easter_sunday" ++ "_" := by decide
    rw [longer, String.append_assoc]
    exact known _ _ _ (by decide)
  | pentecost => decide
  | advent n => exact known _ _ _ (by decide)

theorem seasonOf?_ordinary {id : String}
    (begins : "ordinary_sunday_".toList.isPrefixOf id.toList = true) :
    seasonOf? id = some .ordinaryTime := by
  rw [seasonOf?, heads, List.find?_cons]
  simp only [begins, Option.map_some]

def inCatalogue : List (String × RuleSlot) := [
  ("palm_sunday", .rule (.anchor (.named "palm_sunday"))),
  ("easter_sunday", .rule (.anchor (.named "easter"))),
  ("pentecost", .rule (.anchor (.named "pentecost")))]

theorem seasonOf?_builtin : ∀ celebration ∈ Catalogue.builtin,
    seasonOf? celebration.id = none ∨ (celebration.id, celebration.rule) ∈ inCatalogue := by
  decide +kernel

theorem exists_inCatalogue : ∀ sunday ∈ inCatalogue,
    ∃ celebration ∈ Catalogue.builtin, (celebration.id, celebration.rule) = sunday := by
  decide +kernel

end SundayId

namespace RomanYear

variable {anchors : Anchors} (year : RomanYear anchors)

def winterWeeks : Nat := ((year.easter.number - 49 - year.baptism.number) / 7).toNat

def summerWeeks : Nat := ((year.advent.number - year.pentecost.number) / 7 - 1).toNat

theorem winterWeeks_eq :
    7 * (year.winterWeeks : Int) = year.easter.number - 49 - year.baptism.number := by
  have reckoning := year.reckoning
  unfold winterWeeks
  omega

theorem summerWeeks_eq :
    7 * (year.summerWeeks : Int) = year.advent.number - year.pentecost.number - 7 := by
  have reckoning := year.reckoning
  unfold summerWeeks
  omega

/-- There are fewer Sundays in Ordinary Time than numbers for them. -/
theorem weeks_eq :
    year.winterWeeks + year.summerWeeks = 31 ∨ year.winterWeeks + year.summerWeeks = 32 := by
  have reckoning := year.reckoning
  have winter := year.winterWeeks_eq
  have summer := year.summerWeeks_eq
  omega

def ordinaryDays : List Int :=
  ((List.range year.winterWeeks).map fun (week : Nat) => year.baptism.number + 7 + 7 * (week : Int)) ++
    (List.range year.summerWeeks).map fun (week : Nat) =>
      year.pentecost.number + 7 + 7 * (week : Int)

def seasonalDays : List Int :=
  ([1, 2, 3, 4].map fun (n : Int) => year.advent.number + 7 * (n - 1)) ++
    ([1, 2, 3, 4, 5].map fun (n : Int) => year.easter.number - 42 + 7 * (n - 1)) ++
    [2, 3, 4, 5, 6, 7].map fun (n : Int) => year.easter.number + 7 * (n - 1)

def catalogueDays : List Int := [year.palm.number, year.easter.number, year.pentecost.number]

def sundayName (day : Int) : String :=
  if day < year.lent.number then
    "ordinary_sunday_" ++ intText ((day - year.baptism.number) / 7 + 1)
  else if day < year.palm.number then
    "lent_sunday_" ++ intText ((day - year.lent.number) / 7 + 1)
  else if day < year.easter.number then "palm_sunday"
  else if day = year.easter.number then "easter_sunday"
  else if day < year.pentecost.number then
    "easter_sunday_" ++ intText ((day - year.easter.number) / 7 + 1)
  else if day = year.pentecost.number then "pentecost"
  else if day < year.advent.number then
    "ordinary_sunday_" ++ intText ((day - year.pentecost.number) / 7 + 1 + year.winterWeeks)
  else "advent_sunday_" ++ intText ((day - year.advent.number) / 7 + 1)

structure IsSunday (day : Int) : Prop where
  sunday : day % 7 = 0
  after : year.baptism.number < day
  before : day < year.christmas.number

variable {year} {day : Int}

theorem isSunday_of_ordinaryDays (member : day ∈ year.ordinaryDays) : year.IsSunday day := by
  have reckoning := year.reckoning
  have winter := year.winterWeeks_eq
  have summer := year.summerWeeks_eq
  simp only [ordinaryDays, List.mem_append, List.mem_map, List.mem_range] at member
  rcases member with ⟨week, fits, rfl⟩ | ⟨week, fits, rfl⟩
  · exact ⟨by omega, by omega, by omega⟩
  · exact ⟨by omega, by omega, by omega⟩

theorem isSunday_of_seasonalDays (member : day ∈ year.seasonalDays) : year.IsSunday day := by
  have reckoning := year.reckoning
  simp only [seasonalDays, List.map_cons, List.map_nil, List.mem_append, List.mem_cons,
    List.not_mem_nil, or_false] at member
  exact ⟨by omega, by omega, by omega⟩

theorem isSunday_of_catalogueDays (member : day ∈ year.catalogueDays) : year.IsSunday day := by
  have reckoning := year.reckoning
  simp only [catalogueDays, List.mem_cons, List.not_mem_nil, or_false] at member
  exact ⟨by omega, by omega, by omega⟩

theorem sunday_cases (sunday : year.IsSunday day) :
    day ∈ year.ordinaryDays ∨ day ∈ year.seasonalDays ∨ day ∈ year.catalogueDays := by
  have reckoning := year.reckoning
  have winter := year.winterWeeks_eq
  have summer := year.summerWeeks_eq
  obtain ⟨sunday, after, before⟩ := sunday
  simp only [ordinaryDays, seasonalDays, catalogueDays, List.map_cons, List.map_nil,
    List.mem_append, List.mem_map, List.mem_range, List.mem_cons, List.not_mem_nil, or_false]
  by_cases early : day < year.lent.number
  · exact Or.inl (Or.inl ⟨((day - year.baptism.number) / 7 - 1).toNat, by omega, by omega⟩)
  · by_cases late : year.pentecost.number < day ∧ day < year.advent.number
    · exact Or.inl (Or.inr ⟨((day - year.pentecost.number) / 7 - 1).toNat, by omega, by omega⟩)
    · omega

theorem sundayName_ordinaryDays {index : Nat} (found : year.ordinaryDays[index]? = some day) :
    year.sundayName day = "ordinary_sunday_" ++ intText ((index : Int) + 2) := by
  have reckoning := year.reckoning
  have winter := year.winterWeeks_eq
  have summer := year.summerWeeks_eq
  rw [ordinaryDays, List.getElem?_append, List.length_map, List.length_range] at found
  unfold sundayName
  split at found
  · obtain ⟨week, fits, rfl⟩ := List.getElem?_eq_some_iff.mp found
    simp only [List.getElem_map, List.getElem_range]
    rw [if_pos (by omega)]
    congr 2
    omega
  · obtain ⟨week, fits, rfl⟩ := List.getElem?_eq_some_iff.mp found
    simp only [List.length_map, List.length_range] at week
    simp only [List.getElem_map, List.getElem_range]
    rw [if_neg (by omega), if_neg (by omega), if_neg (by omega), if_neg (by omega),
      if_neg (by omega), if_neg (by omega), if_pos (by omega)]
    congr 2
    omega

theorem sundayName_advent {n : Int} (range : 1 ≤ n ∧ n ≤ 4) :
    year.sundayName (year.advent.number + 7 * (n - 1)) = "advent_sunday_" ++ intText n := by
  have reckoning := year.reckoning
  unfold sundayName
  rw [if_neg (by omega), if_neg (by omega), if_neg (by omega), if_neg (by omega),
    if_neg (by omega), if_neg (by omega), if_neg (by omega)]
  congr 2
  omega

theorem sundayName_lent {n : Int} (range : 1 ≤ n ∧ n ≤ 5) :
    year.sundayName (year.easter.number - 42 + 7 * (n - 1)) = "lent_sunday_" ++ intText n := by
  have reckoning := year.reckoning
  unfold sundayName
  rw [if_neg (by omega), if_pos (by omega)]
  congr 2
  omega

theorem sundayName_afterEaster {n : Int} (range : 2 ≤ n ∧ n ≤ 7) :
    year.sundayName (year.easter.number + 7 * (n - 1)) = "easter_sunday_" ++ intText n := by
  have reckoning := year.reckoning
  unfold sundayName
  rw [if_neg (by omega), if_neg (by omega), if_neg (by omega), if_neg (by omega),
    if_pos (by omega)]
  congr 2
  omega

theorem sundayName_palm : year.sundayName year.palm.number = "palm_sunday" := by
  have reckoning := year.reckoning
  unfold sundayName
  rw [if_neg (by omega), if_neg (by omega), if_pos (by omega)]

theorem sundayName_easter : year.sundayName year.easter.number = "easter_sunday" := by
  have reckoning := year.reckoning
  unfold sundayName
  rw [if_neg (by omega), if_neg (by omega), if_neg (by omega), if_pos rfl]

theorem sundayName_pentecost : year.sundayName year.pentecost.number = "pentecost" := by
  have reckoning := year.reckoning
  unfold sundayName
  rw [if_neg (by omega), if_neg (by omega), if_neg (by omega), if_neg (by omega),
    if_neg (by omega), if_pos rfl]

theorem sundayId_sundayName {date : Date} (sunday : year.IsSunday date.number) :
    SundayId (year.sundayName date.number) (year.season date) := by
  have reckoning := year.reckoning
  obtain ⟨sunday, after, before⟩ := sunday
  have notBefore : ¬date.number < year.baptism.number + 1 := by omega
  simp only [sundayName, SeasonTurns.season, SeasonTurns.spans, Season.among, if_neg notBefore]
  by_cases inWinter : date.number < year.lent.number
  · simp only [if_pos inWinter]
    exact .ordinary _
  by_cases inLent : date.number < year.easter.number
  · simp only [if_neg inWinter, if_pos inLent]
    split
    · exact .lent _
    · exact .palm
  have notPalm : ¬date.number < year.palm.number := by omega
  by_cases inEaster : date.number < year.pentecost.number + 1
  · simp only [if_neg inWinter, if_neg inLent, if_neg notPalm, if_pos inEaster]
    split
    · exact .easter
    · split
      · exact .afterEaster _ ⟨by omega, by omega⟩
      · rw [if_pos (by omega)]
        exact .pentecost
  have notEaster : date.number ≠ year.easter.number := by omega
  have notPentecost : ¬date.number < year.pentecost.number ∧ date.number ≠ year.pentecost.number := by
    omega
  simp only [if_neg inWinter, if_neg inLent, if_neg notPalm, if_neg inEaster, if_neg notEaster,
    if_neg notPentecost.1, if_neg notPentecost.2, if_pos before]
  split
  · exact .ordinary _
  · exact .advent _

theorem length_ordinaryDays (year : RomanYear anchors) :
    year.ordinaryDays.length = year.winterWeeks + year.summerWeeks := by
  simp [ordinaryDays]

theorem mem_ordinaryDays {date : Date} (sunday : year.IsSunday date.number)
    (ordinary : year.season date = .ordinaryTime) : date.number ∈ year.ordinaryDays := by
  have reckoning := year.reckoning
  have after := sunday.after
  simp only [SeasonTurns.season, SeasonTurns.spans, Season.among] at ordinary
  have spans : date.number < year.lent.number ∨
      year.pentecost.number < date.number ∧ date.number < year.advent.number := by
    split_ifs at ordinary
    · omega
    · omega
  rcases sunday_cases sunday with inOrdinary | inSeason | inCatalogue
  · exact inOrdinary
  · simp only [seasonalDays, List.map_cons, List.map_nil, List.mem_append, List.mem_cons,
      List.not_mem_nil, or_false] at inSeason
    omega
  · simp only [catalogueDays, List.mem_cons, List.not_mem_nil, or_false] at inCatalogue
    omega

theorem pairwise_ordinaryDays (year : RomanYear anchors) : year.ordinaryDays.Pairwise (· < ·) := by
  have reckoning := year.reckoning
  have winter := year.winterWeeks_eq
  have ascending : ∀ (start : Int) (weeks : Nat),
      ((List.range weeks).map fun (week : Nat) => start + 7 * (week : Int)).Pairwise (· < ·) := by
    intro start weeks
    rw [List.pairwise_map]
    refine List.pairwise_lt_range.imp fun before => ?_
    omega
  rw [ordinaryDays, List.pairwise_append]
  refine ⟨ascending _ _, ascending _ _, ?_⟩
  simp only [List.mem_map, List.mem_range, forall_exists_index, and_imp, forall_apply_eq_imp_iff₂]
  omega

theorem names_ordinaryDays (year : RomanYear anchors) :
    year.ordinaryDays.map year.sundayName =
      (List.range' 2 (year.winterWeeks + year.summerWeeks)).map fun (n : Nat) =>
        "ordinary_sunday_" ++ intText n := by
  apply List.ext_getElem
  · rw [List.length_map, length_ordinaryDays, List.length_map, List.length_range']
  · intro index fits _
    rw [List.length_map] at fits
    rw [List.getElem_map, List.getElem_map, List.getElem_range',
      sundayName_ordinaryDays (List.getElem?_eq_getElem fits)]
    congr 2
    omega

end RomanYear

end FeastCalendar
