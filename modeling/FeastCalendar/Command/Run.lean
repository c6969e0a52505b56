import FeastCalendar.Command.Files
import FeastCalendar.Command.Line
import FeastCalendar.Novena.Scrape
import FeastCalendar.Novena.Wire
import FeastCalendar.Report.EquinoxSeries
import FeastCalendar.Report.MonthGrid

/-!
What the commands print. A command is a pure function from its words and its surroundings to the
text it writes and the way it ends; faults of the calendar become a message and the status 2, other
failures end the program.
-/

namespace FeastCalendar.Command

open Civil (Date)

/-- What a command finds around it. The two libraries that drawing needs may be missing. -/
structure Surroundings where
  files : Files
  today : Date
  /-- The words in which a text that is no JSON is refused. -/
  refusal : String → String
  /-- The integers from one up to another, if they are not too wide. -/
  range? : Option (Int → Int → Option (List Int))
  draw? : Option (List EquinoxSeries.Series → String → Except FileFault Unit)

structure Transcript where
  output : Array String := {}
  errors : Array String := {}

inductive Breakdown where
  | failure (cause : Failure)
  | file (fault : FileFault)
  | missingLibrary (name : String)
  | noYears
deriving DecidableEq

def Breakdown.missingLibraryMessage (name : String) : String :=
  "Need " ++ name ++ ". Install: pip install \"novenacal[diagnostics]\""

def Breakdown.noYearsMessage : String := "min() arg is an empty sequence"

inductive Ending where
  | status (code : Nat)
  | message (text : String)
  | breakdown (cause : Breakdown)

abbrev Script := ExceptT Breakdown (StateM Transcript)

def lift {α : Type} (result : Except Failure α) : Script α :=
  ExceptT.mk (pure (result.mapError .failure))

def say (line : String) : Script Unit :=
  modify fun transcript => { transcript with output := transcript.output.push line }

def sayAll (lines : List String) : Script Unit :=
  modify fun transcript => { transcript with output := transcript.output ++ lines.toArray }

def complain (line : String) : Script Unit :=
  modify fun transcript => { transcript with errors := transcript.errors.push line }

def programError (message : String) : String := "novenacal: error: " ++ message

inductive LogLevel where
  | debug
  | warning

def log (verbose : Bool) (level : LogLevel) (source message : String) : Script Unit :=
  match level with
  | .debug => if verbose then complain ("DEBUG [" ++ source ++ "] " ++ message) else pure ()
  | .warning => complain ("WARNING [" ++ source ++ "] " ++ message)

def anchorLog : String := "novenacal.engines.anchors"
def novenaLog : String := "novenacal.engines.novena"

def almanac : Almanac := Almanac.initial

def tableOf (verbose : Bool) (year : Int) : Script AnchorTable := do
  let table ← lift (almanac.table (.int year))
  let easter ← lift (Easter.sunday year)
  log verbose .debug anchorLog ("Built anchor table for " ++ Text.intText year ++ " (" ++
    toString table.dates.length ++ " anchors, easter=" ++ easter.iso ++ ")")
  return table

/-- Logs what a batch drops, up to the entry that ends it, if one does. -/
def logBatch (verbose : Bool) (year : Int) (anchors : Anchors) : List Novena → Script Unit
  | [] => pure ()
  | novena :: novenas => do
    let named := novena.id.val.shown
    match novena.resolve (.int year) anchors with
    | .ok window =>
      match window.hint with
      | some hint =>
        if window.hintDiscarded then
          log verbose .debug novenaLog ("Novena " ++ named ++ " (" ++ Text.intText year ++
            "): start hint " ++ hint.iso ++ " disagrees with canonical start " ++
            window.start.iso ++ "; using canonical")
      | none => pure ()
      logBatch verbose year anchors novenas
    | .error (.fault fault) =>
      log verbose .warning novenaLog ("Skipping novena " ++ named ++ " for " ++
        Text.intText year ++ ": " ++ fault.message)
      logBatch verbose year anchors novenas
    | .error _ => pure ()

def batchOf (verbose : Bool) (year : Int) (novenas : List Novena) : Script NovenaBatch := do
  let anchors := Anchors.table (← tableOf verbose year)
  logBatch verbose year anchors novenas
  lift (NovenaBatch.resolve novenas (.int year) anchors)

def observancesOf (verbose : Bool) (year : Int) : Script ObservanceTable := do
  let table ← tableOf verbose year
  lift (ObservanceTable.build (.int year) (.table table) Catalogue.builtin)

def easterDates : List Int → Script Unit
  | [] => pure ()
  | year :: years => do
    say (← lift (Easter.sunday year)).iso
    easterDates years

def printAnchors (verbose : Bool) (year : Int) (json : Bool) : Script Unit := do
  let dates := (← tableOf verbose year).chronological
  if json then
    say ((Json.obj (dates.map fun entry => (entry.1, .str entry.2.iso))).render .asciiIndented)
  else
    let width := (dates.map fun entry => entry.1.length).foldl max 0
    sayAll (dates.map fun entry => Text.padRight width entry.1.shown ++ "  " ++ entry.2.iso)

def ruleValue (text : String) : Except (Json.ReadFault × String) Json :=
  (Json.parse Json.nestingLimit text).mapError (·, text)

/-- The values of two JSON texts, the second counting as null if it is empty or not given. -/
def ruleValues (rule : String) (feast : Option String) :
    Except (Json.ReadFault × String) (Json × Json) := do
  let rule ← ruleValue rule
  match feast.filter (!·.isEmpty) with
  | some text => return (rule, ← ruleValue text)
  | none => return (rule, .null)

def resolveRule (around : Surroundings) (verbose : Bool) (year : Int) (rule : String)
    (feast : Option String) : Script Nat := do
  match ruleValues rule feast with
  | .ok (rule, feast) =>
    let rule ← lift (Rule.ofJson rule)
    let feast ← lift (Novena.optionalRule feast)
    let anchors := Anchors.table (← tableOf verbose year)
    say (← lift (rule.resolve (.int year) anchors feast)).iso
    return 0
  | .error (.tooDeep, _) => throw (.failure (.json .tooDeep))
  | .error (_, text) =>
    complain (programError ("rule is not valid JSON: " ++ around.refusal text))
    return 2

def indexOf (files : Files) (path : Option String) : Script (List Novena) :=
  match path.filter (!·.isEmpty) with
  | none => return NovenaIndex.bundled
  | some path => match files.read path with
    | .ok text => lift (NovenaIndex.load text)
    | .error fault => throw (.file fault)

def windowLine (window : NovenaInstance) : String :=
  window.start.iso ++ "  ->  " ++ window.feast.iso ++ "  " ++
    Text.padLeft 3 (Text.intText window.duration) ++ "d  " ++ window.title.display.shown ++
    if window.hintDiscarded then "  (start hint discarded)" else ""

def batchJson (batch : NovenaBatch) : Json := .obj [
  ("year", batch.year),
  ("novenas", .arr (batch.instances.map fun window => .obj window.toJson)),
  ("failures", .arr (batch.failures.map fun failure =>
    .obj [("id", .str failure.id.val), ("error", .str failure.fault.message)]))]

def printNovenas (files : Files) (verbose : Bool) (year : Int) (index : Option String)
    (json : Bool) : Script Nat := do
  let novenas ← indexOf files index
  let batch ← batchOf verbose year novenas
  if json then say ((batchJson batch).render .indented)
  else
    sayAll (batch.instances.map windowLine)
    for failure in batch.failures do
      complain ("FAILED  " ++ failure.id.val.shown ++ ": " ++ failure.fault.message)
  return if batch.ok then 0 else 1

def observanceJson (observance : Observance) : Json := .obj [
  ("id", .str observance.id),
  ("title", .str observance.title),
  ("rank", .str observance.rank.label),
  ("color", Attribute.textOrNull observance.color),
  ("season", Attribute.textOrNull (observance.season.map Season.name)),
  ("seasonMarker", .bool observance.seasonMarker)]

def observanceLine (date : Date) (observance : Observance) : String :=
  let color := (observance.color.filter fun color => !color.isEmpty).getD "-"
  date.iso ++ (if observance.seasonMarker then " * " else "   ") ++
    Text.padRight 17 observance.rank.label ++ " " ++ Text.padRight 7 color ++ " " ++
    observance.title

def printObservances (verbose : Bool) (year : Int) (month : Option Int) (json : Bool) :
    Script Unit := do
  let table ← observancesOf verbose year
  let table := match month with
    | some month =>
      table.startingWith (Text.zeroPadded 4 year ++ "-" ++ Text.zeroPadded 2 month ++ "-")
    | none => table
  if json then
    say ((Json.obj (table.map fun entry =>
      (entry.1.iso, .arr (entry.2.map observanceJson)))).render .indented)
  else sayAll (table.flatMap fun entry => entry.2.map (observanceLine entry.1))

def dayLines (day : Day) (values : Keyed Text Json) : List String :=
  [day.date.iso ++ "  " ++ ((day.season.map Season.name).getD "")] ++
    (day.observances.map fun observance =>
      "  " ++ Text.padRight 17 observance.rank.label ++ " " ++ observance.title) ++
    values.map fun entry => "  " ++ entry.1.shown ++ " = " ++ entry.2.display.shown

def printDay (verbose : Bool) (text : String) (wanted : List String) : Script Nat := do
  match Date.ofText text with
  | .error .beyondRange => throw (.failure (.date .beyondRange))
  | .error cause =>
    complain (programError ("invalid date " ++ Text.quote text ++ ": " ++ cause.message))
    return 2
  | .ok date =>
    let anchors := Anchors.table (← tableOf verbose date.year)
    let table ← lift (ObservanceTable.build (.int date.year) anchors Catalogue.builtin)
    let day ← lift (Day.ofTable date anchors table)
    let wanted := wanted.map Text.ofString
    for name in wanted.takeWhile (Keyed.contains almanac.attributes ·) do
      if name = "lectionary" then let _ ← tableOf verbose date.year
    let values ← lift (almanac.attributes.compute almanac.builtRegistry.definitions day wanted)
    sayAll (dayLines day values)
    return 0

/-- The rows of `count` years; answers the Easter Sundays of the month asked for. -/
def yearRows (verbose : Bool) (style : YearTable.Style) (columns : List String)
    (listMonth : Option Int) : Nat → Int → Script (List Date)
  | 0, _ => return []
  | count + 1, year => do
    let table ← tableOf verbose year
    say (← lift (YearTable.row style columns year table))
    let hits ← match listMonth with
      | some month => do
        let easter ← lift (table.get "easter")
        pure (if easter.month = month then [easter] else [])
      | none => pure []
    return hits ++ (← yearRows verbose style columns listMonth count (year + 1))

def printYears (verbose : Bool) (first last : Int) (columns : String) (style : YearTable.Style)
    (listMonth : Option Int) : Script Ending := do
  let columns := if columns.isEmpty then YearTable.defaultColumns else YearTable.columnsOf columns
  if last < first then return .message "--to-year must be >= --from-year"
  let header := YearTable.header style columns
  sayAll [header, YearTable.underline header]
  let hits ← yearRows verbose style columns listMonth (last - first + 1).toNat first
  match listMonth with
  | some month =>
    sayAll ["", "Easter Sundays in month=" ++ Text.zeroPadded 2 month ++ ":"]
    if hits.isEmpty then say "(none)" else sayAll (hits.map Date.iso)
  | none => pure ()
  return .status 0

def printMonth (verbose : Bool) (year month : Int) : Script Unit := do
  let dates ← lift (MonthGrid.monthDates year month)
  let table ← observancesOf verbose year
  let novenas := (← batchOf verbose year NovenaIndex.bundled).instances
  let anchors := Anchors.table (← tableOf verbose year)
  sayAll (← lift (MonthGrid.lines (MonthGrid.title year month) dates anchors table novenas))

def seriesPoints (verbose : Bool) (anchor : Text) : List Int → Script (List (Int × Int))
  | [] => return []
  | year :: years => do
    let table ← tableOf verbose year
    let point ← lift (EquinoxSeries.point table anchor year)
    return point :: (← seriesPoints verbose anchor years)

def sayExtent (points : List (Int × Int)) : Script Unit :=
  match EquinoxSeries.extent? (points.map Prod.snd) with
  | some (least, greatest) =>
    say ("Easter range: March 21 + " ++ Text.intText least ++ " .. March 21 + " ++
      Text.intText greatest ++ " days")
  | none => throw .noYears

def gatherSeries (verbose : Bool) (years : Option (List Int)) :
    Keyed Text EquinoxSeries.Style → Script (List EquinoxSeries.Series)
  | [] => return []
  | (anchor, style) :: rest =>
    match years with
    | none => throw (.failure .tooWide)
    | some range => do
      let points ← seriesPoints verbose anchor range
      if anchor = "easter" then sayExtent points
      return ⟨style, points⟩ :: (← gatherSeries verbose years rest)

def printScatter (around : Surroundings) (verbose : Bool) (first last : Int) (pentecost : Bool)
    (base : String) : Script Unit :=
  match around.range?, around.draw? with
  | none, _ => throw (.missingLibrary "numpy")
  | some _, none => throw (.missingLibrary "matplotlib")
  | some range, some draw => do
    let styles := EquinoxSeries.styles pentecost
    let series ← gatherSeries verbose (range first (last + 1)) styles
    let name := base ++ ".png"
    match draw series name with
    | .ok () => say ("Saved: " ++ name)
    | .error fault => throw (.file fault)

def perform (around : Surroundings) (verbose : Bool) : Request → Script Ending
  | .easter years => do easterDates years; return .status 0
  | .anchors year json => do printAnchors verbose year json; return .status 0
  | .resolve year rule feast => do return .status (← resolveRule around verbose year rule feast)
  | .novenas year index json => do
    return .status (← printNovenas around.files verbose year index json)
  | .observances year month json => do printObservances verbose year month json; return .status 0
  | .day date wanted => do return .status (← printDay verbose date wanted)
  | .parse words => do
    let rule ← lift (Phrase.parseBuiltin (Text.joinWith " " words))
    say (rule.toJson.render .asciiLine)
    return .status 0
  | .yearTable first last columns style listMonth =>
    printYears verbose first last columns style listMonth
  | .month given => do
    let (year, month) := given.getD (around.today.year, around.today.month)
    printMonth verbose year month
    return .status 0
  | .scatter first last pentecost base => do
    printScatter around verbose first last pentecost base
    return .status 0

structure Outcome where
  output : String
  errors : String
  ending : Ending

def textOf (lines : Array String) : String := String.join (lines.toList.map (· ++ "\n"))

/-- The whole program: a fault is told in one line and ends it with status 2. -/
def run (around : Surroundings) (words : List String) : Outcome :=
  match Line.read words with
  | .error .misuse => ⟨"", "", .status 2⟩
  | .error .help => ⟨"", "", .status 0⟩
  | .ok line =>
    let (result, transcript) := (perform around line.verbose line.request).run {}
    let output := textOf transcript.output
    match result with
    | .ok ending => ⟨output, textOf transcript.errors, ending⟩
    | .error (.failure (.fault fault)) =>
      ⟨output, textOf (transcript.errors.push (programError fault.message)), .status 2⟩
    | .error cause => ⟨output, textOf transcript.errors, .breakdown cause⟩

end FeastCalendar.Command
