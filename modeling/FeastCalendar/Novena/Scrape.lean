import FeastCalendar.Novena.Basic
import FeastCalendar.Rule.Phrase

/-!
Novenas from a title and the wordings of their start and feast.
-/

namespace FeastCalendar

open Civil (Date)

namespace Scrape

def normalizeTitle (title : String) : String :=
  let chars := Text.trimBlanks title.toList
  let size := chars.length - 6
  let ending := Text.lowerChars (chars.drop size)
  let lead := chars.take size
  if ending = "novena".toList && (lead.getLast?.map Text.isBlank).getD false then
    String.ofList (Text.trimBlanks lead)
  else String.ofList chars

def occurs (word : List Char) : List Char → Bool
  | [] => word.isEmpty
  | c :: rest => word.isPrefixOf (c :: rest) || occurs word rest

def mentions (words : List String) (text : List Char) : Bool :=
  words.any fun word => occurs word.toList text

def category (title : String) : String :=
  let text := Text.lowerChars title.toList
  if mentions ["our lady", "mary"] text then "Marian"
  else if mentions ["holy", "sacred"] text then "Feast"
  else if mentions ["saint"] text || "st ".toList.isPrefixOf text || "st. ".toList.isPrefixOf text then
    "Saint"
  else "Devotion"

/-- The year by which a span between two fixed days is measured; it has no leap day. -/
abbrev commonYear : Int := 2025

def fixedSpan? (startMonth startDay feastMonth feastDay : Int) : Option Int :=
  let wraps := feastMonth < startMonth || (feastMonth = startMonth && feastDay < startDay)
  match Date.ofYmd commonYear startMonth startDay,
      Date.ofYmd (if wraps then commonYear + 1 else commonYear) feastMonth feastDay with
  | .ok start, .ok feast =>
    let days := start.daysTo feast
    if 0 ≤ days ∧ days < maxDuration then some (days + 1) else none
  | _, _ => none

/-- The days from start to feast, both included, as far as the two rules alone tell. -/
def duration? (start : Option RuleSlot) (feast : Option RuleSlot) : Option Int :=
  match start, feast with
  | some (.rule (.beforeFeast days _)), _ => some days.val
  | some (.rule (.fixed startMonth startDay)), some (.rule (.fixed feastMonth feastDay)) =>
    fixedSpan? startMonth.val startDay.val feastMonth.val feastDay.val
  | _, _ => none

def definition (title start feast : String) (source : Json) : Except Failure Novena := do
  let title := normalizeTitle title
  let startRule ← Phrase.parseBuiltin start
  let feastRule ← Phrase.parseBuiltin feast
  let category := category title
  let id ← Checked.key "novena.id" (.str (Text.identifier title))
  return {
    id := id
    title := .str title
    feast := .rule feastRule
    start := some (.rule startRule)
    duration := match duration? (some (.rule startRule)) (some (.rule feastRule)) with
      | some days => .int days
      | none => .null
    category := .str category
    tags := ["Novena", category, title].eraseDups.map fun (tag : String) => .str tag
    source := source }

end Scrape

end FeastCalendar
