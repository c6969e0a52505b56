import FeastCalendar.Anchor.Registry
import FeastCalendar.Day.Attributes
import FeastCalendar.Novena.Batch
import FeastCalendar.Novena.Bundled

/-!
An almanac: dictionaries of anchor definitions, of which one is its registry's, and a set of
attributes, with the requests it answers. A dictionary is changed where it stands: two registries
that share one change together, and one that shares the built-in dictionary changes that. Only
setting the registry and registering change the registry; a request that fails leaves it as it was.
-/

namespace FeastCalendar

open Civil (Date)

/-- What an almanac holds: dictionaries, each at a place of its own; the place of its registry's,
once one is set; and the attributes of a day. -/
structure Almanac where
  dictionaries : List Definitions
  registry : Option Nat
  attributes : Attributes

namespace Almanac

def builtinPlace : Nat := 0

def registryAt (almanac : Almanac) (place : Nat) : Registry :=
  ⟨almanac.dictionaries.getD place []⟩

def builtRegistry (almanac : Almanac) : Registry := almanac.registryAt builtinPlace

/-- Gives the definitions of a registry a new place and has them for its own. -/
def install (almanac : Almanac) (registry : Registry) : Almanac :=
  { almanac with
    dictionaries := almanac.dictionaries ++ [registry.definitions]
    registry := some almanac.dictionaries.length }

/-- Has the dictionary that stands at a place for the registry's own, or else a new one. -/
def share (almanac : Almanac) (place : Nat) : Almanac :=
  if place < almanac.dictionaries.length then { almanac with registry := some place }
  else almanac.install ⟨[]⟩

def builtinRegistry : Registry := ⟨Definitions.builtin⟩

def unset : Almanac := ⟨[Definitions.builtin], none, Attributes.builtin⟩

def initial : Almanac := unset.install unset.builtRegistry

def registryPlace (almanac : Almanac) : Except Failure Nat :=
  match almanac.registry with
  | some place => .ok place
  | none => .error .noRegistry

def theRegistry (almanac : Almanac) : Except Failure Registry := do
  return almanac.registryAt (← almanac.registryPlace)

def table (almanac : Almanac) (year : Json) : Except Failure AnchorTable := do
  (← almanac.theRegistry).table year

def anchorsOr (almanac : Almanac) (anchors : Option Anchors) (year : Json) :
    Except Failure Anchors :=
  match anchors with
  | some anchors => .ok anchors
  | none => do return .table (← almanac.table year)

def batch (almanac : Almanac) (year : Json) (novenas : List Novena) :
    Except Failure NovenaBatch := do
  NovenaBatch.resolve novenas year (.table (← almanac.table year))

def observances (almanac : Almanac) (year : Json) : Except Failure ObservanceTable := do
  ObservanceTable.build year (.table (← almanac.table year)) Catalogue.builtin

def day (almanac : Almanac) (date : Date) : Except Failure Day := do
  let anchors := Anchors.table (← almanac.table (.int date.year))
  Day.ofTable date anchors (← ObservanceTable.build (.int date.year) anchors Catalogue.builtin)

inductive Request where
  | names
  | definition (name : Text)
  | register (name : Text) (anchor : Anchor) (overwrite : Bool)
  | setRegistry (registry : Option Registry)
  | resetRegistry
  | shareRegistry (place : Nat)
  | easter (year : Json)
  | table (year : Json)
  | anchorDate (name : Text) (year : Json)
  | builtinAnchorDate (name : Text) (year : Json)
  | ruleDate (rule : RuleSlot) (year : Json) (feast : Option RuleSlot) (anchors : Option Anchors)
  | novena (novena : Novena) (year : Json) (anchors : Option Anchors)
  | novenas (year : Json) (novenas : List Novena)
  | calendar (year : Json) (novenas : List Novena)
  | observances (year : Json)
  | season (date : Date)
  | day (date : Date) (attributes : List Text)
  | attributeNames
  | registerAttribute (name : Text) (kind : Attribute)

/-- What an almanac answers with; `done` stands for a change and for nothing else. -/
inductive Answer where
  | done
  | names (names : List Text)
  | definition (anchor : Anchor)
  | date (date : Date)
  | table (table : AnchorTable)
  | window (window : NovenaInstance)
  | batch (batch : NovenaBatch)
  | calendar (calendar : NovenaCalendar)
  | observances (table : ObservanceTable)
  | season (season : Season)
  | day (day : Day) (values : Option (Keyed Text Json))

def inquire (almanac : Almanac) : Request → Except Failure Answer
  | .names => do return .names (← almanac.theRegistry).names
  | .definition name => do return .definition (← (← almanac.theRegistry).get name)
  | .easter year => do return .date (← Easter.ofYear year)
  | .table year => do return .table (← almanac.table year)
  | .anchorDate name year => do return .date (← (← almanac.table year).get name)
  | .builtinAnchorDate name year => do
    return .date (← (← almanac.builtRegistry.table year).get name)
  | .ruleDate rule year feast anchors => do
    return .date (← rule.resolve year (← almanac.anchorsOr anchors year) feast)
  | .novena novena year anchors => do
    return .window (← novena.resolve year (← almanac.anchorsOr anchors year))
  | .novenas year novenas => do return .batch (← almanac.batch year novenas)
  | .calendar year novenas => do
    return .calendar (NovenaCalendar.ofInstances (← almanac.batch year novenas).instances)
  | .observances year => do return .observances (← almanac.observances year)
  | .season date => do
    return .season (← Season.ofDate date (.table (← almanac.table (.int date.year))))
  | .day date wanted => do
    let day ← almanac.day date
    if wanted.isEmpty then return .day day none
    else
      let builtin := almanac.builtRegistry.definitions
      return .day day (some (← almanac.attributes.compute builtin day wanted))
  | .attributeNames => .ok (.names almanac.attributes.names)
  | _ => .ok .done

def change (almanac : Almanac) : Request → Except Failure Almanac
  | .register name anchor overwrite => do
    let place ← almanac.registryPlace
    let registry ← (almanac.registryAt place).register name anchor overwrite
    return { almanac with dictionaries := almanac.dictionaries.set place registry.definitions }
  | .setRegistry none => .ok { almanac with registry := none }
  | .setRegistry (some registry) => .ok (almanac.install registry)
  | .resetRegistry => .ok (almanac.install almanac.builtRegistry)
  | .shareRegistry place => .ok (almanac.share place)
  | .registerAttribute name kind =>
    .ok { almanac with attributes := Keyed.put almanac.attributes name kind }
  | _ => .ok almanac

def handle (almanac : Almanac) (request : Request) : Almanac × Except Failure Answer :=
  match almanac.change request with
  | .ok changed => (changed, almanac.inquire request)
  | .error failure => (almanac, .error failure)

def anchorCount (almanac : Almanac) : Option Nat :=
  almanac.registry.map fun place => (almanac.registryAt place).definitions.length

end Almanac

end FeastCalendar
