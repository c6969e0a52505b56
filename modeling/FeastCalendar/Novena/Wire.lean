import FeastCalendar.Novena.Basic
import FeastCalendar.Json.Order
import FeastCalendar.Json.Reader

/-!
Novenas as JSON objects, and an index of them as a JSON array. Members of an entry that have no
meaning are kept and written back.
-/

namespace FeastCalendar

namespace Novena

def knownMembers : List Text := [
  "id", "title", "feastRule", "startRule", "durationDays", "category", "tags", "description",
  "patronage", "image", "notes", "source"]

def listed (value : Json) : Except Failure (List Json) :=
  if value.isNothing then .ok []
  else match value.items? with
    | some items => .ok items
    | none => .error (.wrongType .other)

def optionalRule : Json → Except Failure (Option RuleSlot)
  | .null => .ok none
  | value => return some (.rule (← Rule.ofJson value))

def ofMembers (members : Keyed Text Json) : Except Failure Novena := do
  let get := fun name => (Keyed.find? members name).getD .null
  let title ← ((Keyed.find? members "title").getD (get "id")).written
  let feast ← Rule.ofJson (get "feastRule")
  let start ← optionalRule (get "startRule")
  let tags ← listed (get "tags")
  let patronage ← listed (get "patronage")
  let id ← Checked.key "novena.id" (get "id")
  return {
    id := id
    title := .str title
    feast := .rule feast
    start := start
    duration := get "durationDays"
    category := if (get "category").isNothing then .str "Devotion" else get "category"
    tags := tags
    description := get "description"
    patronage := patronage
    image := get "image"
    notes := get "notes"
    source := ((get "source").member? "url").getD .null
    extra := members.filter fun entry => !knownMembers.contains entry.1 }

/-- A fault in an entry names the entry, if its id is a string. -/
def ofJson : Json → Except Failure Novena
  | .obj members =>
    let entry := match Keyed.find? members "id" with
      | some (.str id) => some id
      | _ => none
    (ofMembers members).mapError fun failure => failure.within entry none none
  | other => Checked.refuse (.novenaNotObject other)

/-- Members without meaning come last, and replace those of the same name. -/
def toMembers (novena : Novena) : Except Failure (Keyed Text Json) := do
  let start : Keyed Text Json ← match novena.start with
    | some slot => do pure [("startRule", ← slot.toJson)]
    | none => pure []
  let feast ← novena.feast.toJson
  let duration : Keyed Text Json := match novena.duration with
    | .null => []
    | given => [("durationDays", given)]
  let source : Keyed Text Json := match novena.source with
    | .null => []
    | url => [("source", .obj [("url", url)])]
  let own : List (Keyed Text Json) := [
    [("id", .str novena.id.val), ("title", novena.title)], start, [("feastRule", feast)], duration,
    [("category", novena.category), ("tags", .arr novena.tags),
      ("description", novena.description), ("patronage", .arr novena.patronage),
      ("image", novena.image), ("notes", novena.notes)], source]
  return Keyed.putAll own.flatten novena.extra

def toJson (novena : Novena) : Except Failure Json := do return .obj (← novena.toMembers)

def alikeSlots : RuleSlot → RuleSlot → Bool
  | .rule left, .rule right => match left, right with
    | .raw left, .raw right => left.val.alike right.val
    | left, right => left = right
  | .stray left, .stray right => left.alike right
  | _, _ => false

/-- Equality of definitions by what their values stand for; members without meaning do not count. -/
def alike (left right : Novena) : Bool :=
  left.id = right.id && left.title.alike right.title && alikeSlots left.feast right.feast &&
    (match left.start, right.start with
      | some left, some right => alikeSlots left right
      | none, none => true
      | _, _ => false) &&
    left.duration.alike right.duration && left.category.alike right.category &&
    Json.alikeItems left.tags right.tags && left.description.alike right.description &&
    Json.alikeItems left.patronage right.patronage && left.image.alike right.image &&
    left.notes.alike right.notes && left.source.alike right.source

end Novena

namespace NovenaIndex

def ofJson : Json → Except Failure (List Novena)
  | .arr entries => entries.mapM Novena.ofJson
  | _ => Checked.refuse .indexNotArray

def load (text : String) : Except Failure (List Novena) :=
  do ofJson (← (Json.parse Json.nestingLimit text).mapError .json)

def toJson (novenas : List Novena) : Except Failure Json := do
  return .arr (← novenas.mapM Novena.toJson)

def dump (novenas : List Novena) : Except Failure String := do
  let value ← toJson novenas
  if value.isWritable then return value.render .indented else throw .unwritable

def alike (left right : List Novena) : Bool :=
  left.length == right.length && (left.zip right).all fun pair => pair.1.alike pair.2

end NovenaIndex

end FeastCalendar
