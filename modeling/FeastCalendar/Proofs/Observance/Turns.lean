import FeastCalendar.Observance.Basic
import FeastCalendar.Proofs.Anchor.Builtin
import FeastCalendar.Proofs.Rule.Reach

/-!
The turns of the seasons. Six anchors divide a year into seven spans, of which the first and the
last are the Christmas season and the second and the fifth Ordinary Time.
-/

namespace FeastCalendar
open Civil (Date dayNumber marchFirst)

namespace Season

/-- The season of a day, where each of some seasons lasts until the next one begins. -/
def among (season : Season) : List (Int × Season) → Int → Season
  | [], _ => season
  | (begin, next) :: rest, day => if day < begin then season else among next rest day

/-- Each season begins after the one before it and differs from it. -/
def Alternate (season : Season) : List (Int × Season) → Prop
  | [] => True
  | (begin, next) :: rest =>
    next ≠ season ∧ (∀ later ∈ rest, begin < later.1) ∧ Alternate next rest

theorem among_of_early {spans : List (Int × Season)} {day : Int} (season : Season)
    (early : ∀ span ∈ spans, day < span.1) : among season spans day = season := by
  cases spans with
  | nil => rfl
  | cons span rest => rw [among, if_pos (early span (List.mem_cons_self ..))]

theorem among_changes_iff {season : Season} {spans : List (Int × Season)}
    (alternate : Alternate season spans) (day : Int) :
    among season spans day ≠ among season spans (day - 1) ↔ day ∈ spans.map Prod.fst := by
  induction spans generalizing season with
  | nil => simp [among]
  | cons span rest ih =>
    obtain ⟨begin, next⟩ := span
    obtain ⟨differs, later, alternates⟩ := alternate
    simp only [among, List.map_cons, List.mem_cons]
    rcases Int.lt_trichotomy day begin with before | rfl | after
    · rw [if_pos before, if_pos (by omega)]
      have absent : day ∉ rest.map Prod.fst := by
        rintro member
        obtain ⟨span, listed, rfl⟩ := List.mem_map.mp member
        have further := later span listed
        omega
      simp [absent]
      omega
    · rw [if_neg (Int.lt_irrefl day), if_pos (by omega), among_of_early next later]
      simp [differs]
    · rw [if_neg (by omega), if_neg (by omega), ih alternates]
      have apart : day ≠ begin := by omega
      simp [apart]

end Season

structure SeasonTurns (anchors : Anchors) where
  baptism : Date
  lent : Date
  easter : Date
  pentecost : Date
  advent : Date
  christmas : Date
  baptism_found : anchors.find? "baptism_of_the_lord" = some baptism
  lent_found : anchors.find? "ash_wednesday" = some lent
  easter_found : anchors.find? "easter" = some easter
  pentecost_found : anchors.find? "pentecost" = some pentecost
  advent_found : anchors.find? "advent_1" = some advent
  christmas_found : anchors.find? "christmas" = some christmas
  baptism_lent : baptism.number + 1 < lent.number
  lent_easter : lent.number < easter.number
  easter_pentecost : easter.number ≤ pentecost.number
  pentecost_advent : pentecost.number + 1 < advent.number
  advent_christmas : advent.number < christmas.number

namespace SeasonTurns

variable {anchors : Anchors} (turns : SeasonTurns anchors)

def spans : List (Int × Season) := [
  (turns.baptism.number + 1, .ordinaryTime),
  (turns.lent.number, .lent),
  (turns.easter.number, .easter),
  (turns.pentecost.number + 1, .ordinaryTime),
  (turns.advent.number, .advent),
  (turns.christmas.number, .christmas)]

def season (date : Date) : Season := Season.christmas.among turns.spans date.number

theorem order : turns.baptism.number + 1 < turns.lent.number ∧
    turns.lent.number < turns.easter.number ∧ turns.easter.number ≤ turns.pentecost.number ∧
    turns.pentecost.number + 1 < turns.advent.number ∧
    turns.advent.number < turns.christmas.number :=
  ⟨turns.baptism_lent, turns.lent_easter, turns.easter_pentecost, turns.pentecost_advent,
    turns.advent_christmas⟩

theorem spans_alternate : Season.christmas.Alternate turns.spans := by
  have order := turns.order
  simp [Season.Alternate, spans]
  omega

/-- The season of a date, looked for from the end of the year backwards, is that of its span. -/
theorem ofDate_eq (date : Date) : Season.ofDate date anchors = .ok (turns.season date) := by
  have order := turns.order
  simp only [Season.ofDate, Anchors.get_eq_ok.mpr turns.christmas_found,
    Anchors.get_eq_ok.mpr turns.advent_found, Anchors.get_eq_ok.mpr turns.pentecost_found,
    Anchors.get_eq_ok.mpr turns.easter_found, Anchors.get_eq_ok.mpr turns.lent_found,
    Anchors.get_eq_ok.mpr turns.baptism_found, bind, Except.bind, pure, Except.pure, season, spans,
    Season.among, Date.le_iff, Date.lt_iff]
  grind

end SeasonTurns

/-- The year of the Roman calendar: Lent, Palm Sunday and Pentecost hang on Easter, and Advent has
four Sundays before Christmas. Between the Baptism of the Lord and Advent there are 46 weeks or
47. -/
structure RomanYear (anchors : Anchors) extends SeasonTurns anchors where
  palm : Date
  king : Date
  palm_found : anchors.find? "palm_sunday" = some palm
  king_found : anchors.find? "christ_king" = some king
  baptism_sunday : baptism.number % 7 = 0
  easter_sunday : easter.number % 7 = 0
  advent_sunday : advent.number % 7 = 0
  lent_number : lent.number = easter.number - 46
  palm_number : palm.number = easter.number - 7
  pentecost_number : pentecost.number = easter.number + 49
  summer_sunday : pentecost.number + 7 < advent.number
  king_number : king.number = advent.number - 7
  christmas_bounds : advent.number + 21 < christmas.number ∧ christmas.number ≤ advent.number + 28
  weeks : advent.number = baptism.number + 322 ∨ advent.number = baptism.number + 329

theorem RomanYear.reckoning {anchors : Anchors} (year : RomanYear anchors) :
    year.baptism.number % 7 = 0 ∧ year.easter.number % 7 = 0 ∧ year.advent.number % 7 = 0 ∧
      year.baptism.number + 1 < year.lent.number ∧ year.lent.number = year.easter.number - 46 ∧
      year.palm.number = year.easter.number - 7 ∧
      year.pentecost.number = year.easter.number + 49 ∧
      year.pentecost.number + 7 < year.advent.number ∧ year.king.number = year.advent.number - 7 ∧
      year.advent.number + 21 < year.christmas.number ∧
      year.christmas.number ≤ year.advent.number + 28 ∧
      (year.advent.number = year.baptism.number + 322 ∨
        year.advent.number = year.baptism.number + 329) :=
  ⟨year.baptism_sunday, year.easter_sunday, year.advent_sunday, year.baptism_lent,
    year.lent_number, year.palm_number, year.pentecost_number, year.summer_sunday,
    year.king_number, year.christmas_bounds.1, year.christmas_bounds.2, year.weeks⟩

theorem exists_romanYear {year : Int} {table : AnchorTable} (held : 1 ≤ year ∧ year ≤ 9999)
    (built : AnchorTable.builtin (.int year) = .ok table) : Nonempty (RomanYear table) := by
  obtain ⟨sunday, baptism, advent, king, easterOf, cycle, fixed,
    ⟨baptism_found, baptism_after, baptism_before, baptism_sunday⟩,
    ⟨advent_found, advent_after, advent_before, advent_sunday⟩, king_found, king_number⟩ :=
    AnchorTable.dates_of_builtin held built
  obtain ⟨lent, lent_found, lent_number⟩ := cycle ("ash_wednesday", -46) (by decide)
  obtain ⟨palm, palm_found, palm_number⟩ := cycle ("palm_sunday", -7) (by decide)
  obtain ⟨easter, easter_found, easter_number⟩ := cycle ("easter", 0) (by decide)
  obtain ⟨pentecost, pentecost_found, pentecost_number⟩ := cycle ("pentecost", 49) (by decide)
  obtain ⟨christmas, christmas_found, christmas_number⟩ := fixed ("christmas", 12, 25) (by decide)
  have easterBounds := Easter.sunday_number held easterOf
  have january := Civil.dayNumber_january year 6
  have november : dayNumber year 11 27 = marchFirst year + 245 + 27 - 1 := rfl
  have december : dayNumber year 12 25 = marchFirst year + 275 + 25 - 1 := rfl
  have leapDay : (if Civil.isLeap year then 1 else 0 : Int) = 0 ∨
      (if Civil.isLeap year then 1 else 0 : Int) = 1 := by
    split
    · exact Or.inr rfl
    · exact Or.inl rfl
  simp only at lent_number palm_number easter_number pentecost_number christmas_number
  generalize (if Civil.isLeap year then 1 else 0 : Int) = leapDays at *
  exact ⟨{
    baptism := baptism, lent := lent, easter := easter, pentecost := pentecost, advent := advent
    christmas := christmas, palm := palm, king := king
    baptism_found := baptism_found, lent_found := lent_found, easter_found := easter_found
    pentecost_found := pentecost_found, advent_found := advent_found
    christmas_found := christmas_found, palm_found := palm_found, king_found := king_found
    baptism_lent := by omega
    lent_easter := by omega
    easter_pentecost := by omega
    pentecost_advent := by omega
    advent_christmas := by omega
    baptism_sunday := baptism_sunday
    easter_sunday := by omega
    advent_sunday := advent_sunday
    lent_number := by omega
    palm_number := by omega
    pentecost_number := by omega
    summer_sunday := by omega
    king_number := king_number
    christmas_bounds := by omega
    weeks := by omega }⟩

end FeastCalendar
