import FeastCalendar.Anchor.Table

/-!
The anchors of the Roman calendar: the Easter cycle, the fixed days and the days that are searched.
-/

namespace FeastCalendar

namespace Definitions

def easterCycle : List (String × Int) := [
  ("easter", 0),
  ("ash_wednesday", -46),
  ("shrove_tuesday", -47),
  ("palm_sunday", -7),
  ("holy_thursday", -3),
  ("good_friday", -2),
  ("holy_saturday", -1),
  ("divine_mercy_sunday", 7),
  ("ascension_thursday", 39),
  ("ascension_sunday", 42),
  ("pentecost", 49),
  ("trinity_sunday", 56),
  ("corpus_christi", 60),
  ("corpus_christi_sunday", 63),
  ("sacred_heart", 68),
  ("immaculate_heart", 69)]

def fixedDays : List (String × Int × Int) := [
  ("mary_mother_of_god", 1, 1),
  ("epiphany", 1, 6),
  ("annunciation", 3, 25),
  ("assumption", 8, 15),
  ("all_saints", 11, 1),
  ("immaculate_conception", 12, 8),
  ("christmas_eve", 12, 24),
  ("christmas", 12, 25),
  ("new_years_eve", 12, 31)]

/-- The Sunday in the octave of Christmas, or 30 December when Christmas is a Sunday; the Sunday
after 6 January; the Sunday from 27 November on; and the Sunday before that. -/
def searchedDays : Definitions := [
  ("holy_family", .sundayInWindow 12 26 31 30 []),
  ("baptism_of_the_lord", .weekdayAfter 1 6 0 false []),
  ("advent_1", .weekdayAfter 11 27 0 true []),
  ("christ_king", .anchorOffset "advent_1" (-7))]

def builtin : Definitions :=
  easterCycle.map (fun entry => (Text.ofString entry.1, Anchor.easterOffset entry.2 [])) ++
    fixedDays.map (fun entry => (Text.ofString entry.1, Anchor.fixed entry.2.1 entry.2.2 [])) ++
    searchedDays

end Definitions

namespace AnchorTable

def builtin (year : Json) : Except Failure AnchorTable := build year Definitions.builtin

end AnchorTable

end FeastCalendar
