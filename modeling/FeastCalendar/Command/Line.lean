import FeastCalendar.Command.Options
import FeastCalendar.Report.YearTable

/-!
What can be asked for and how a command line asks for it. A date alone asks for its day.
-/

namespace FeastCalendar.Command

inductive Request where
  | easter (years : List Int)
  | anchors (year : Int) (json : Bool)
  | resolve (year : Int) (rule : String) (feast : Option String)
  | novenas (year : Int) (index : Option String) (json : Bool)
  | observances (year : Int) (month : Option Int) (json : Bool)
  | day (date : String) (attributes : List String)
  | parse (words : List String)
  | yearTable (first last : Int) (columns : String) (style : YearTable.Style)
      (listMonth : Option Int)
  | month (given : Option (Int × Int))
  | scatter (first last : Int) (pentecost : Bool) (base : String)

structure Line where
  verbose : Bool
  request : Request

def flag (name : String) : OptionSpec := ⟨name, ["--" ++ name], 0⟩
def valued (name : String) : OptionSpec := ⟨name, ["--" ++ name], 1⟩
def helpOption : OptionSpec := ⟨"help", ["-h", "--help"], 0⟩
def verboseOption : OptionSpec := ⟨"verbose", ["-v", "--verbose"], 0⟩

def one (name : String) : Positional := ⟨name, false⟩
def several (name : String) : Positional := ⟨name, true⟩

def grammars : List (String × Grammar) := [
  ("easter", ⟨[], [several "year"]⟩),
  ("anchors", ⟨[flag "json"], [one "year"]⟩),
  ("resolve", ⟨[valued "feast-rule"], [one "year", one "rule"]⟩),
  ("novenas", ⟨[valued "index", flag "json"], [one "year"]⟩),
  ("observances", ⟨[valued "month", flag "json"], [one "year"]⟩),
  ("day", ⟨[valued "attr"], [one "date"]⟩),
  ("parse", ⟨[], [several "text"]⟩),
  ("easter-table",
    ⟨[valued "from-year", valued "to-year", valued "anchors", valued "dates", valued "list-month"],
      []⟩),
  ("pretty-month", ⟨[⟨"greg", ["--greg"], 2⟩], []⟩),
  ("easter-scatter",
    ⟨[valued "start-year", valued "end-year", flag "with-pentecost", valued "outbase"], []⟩)]

abbrev Values := List (String × List String)

namespace Values

def given (values : Values) (name : String) : Bool := (values.lookup name).isSome

def all (values : Values) (name : String) : List String :=
  (values.filter fun entry => entry.1 = name).flatMap Prod.snd

/-- Of an option given more than once the last counts. -/
def last? (values : Values) (name : String) : Option (List String) :=
  ((values.filter fun entry => entry.1 = name).getLast?).map Prod.snd

def text? (values : Values) (name : String) : Option String :=
  (values.last? name).bind List.head?

end Values

def integer (text : String) : Except Stop Int :=
  (Text.readInt text).mapError fun _ => .misuse

def requiredInt (values : Values) (name : String) : Except Stop Int :=
  integer ((values.text? name).getD "")

def optionalInt (values : Values) (name : String) : Except Stop (Option Int) :=
  match values.text? name with
  | some text => do return some (← integer text)
  | none => .ok none

/-- What a command's name and its values ask for. Every value of an integer option must be an integer, also
one that a later value overrides. -/
def ofValues (name : String) (values : Values) : Except Stop Request := do
  let json := values.given "json"
  let integerOptions :=
    ["month", "from-year", "to-year", "list-month", "greg", "start-year", "end-year"]
  let _ ← (values.filter fun entry => integerOptions.contains entry.1).mapM fun entry =>
    entry.2.mapM integer
  match name with
  | "easter" => return .easter (← (values.all "year").mapM integer)
  | "anchors" => return .anchors (← requiredInt values "year") json
  | "resolve" =>
    return .resolve (← requiredInt values "year") ((values.text? "rule").getD "")
      (values.text? "feast-rule")
  | "novenas" => return .novenas (← requiredInt values "year") (values.text? "index") json
  | "observances" =>
    return .observances (← requiredInt values "year") (← optionalInt values "month") json
  | "day" => return .day ((values.text? "date").getD "") (values.all "attr")
  | "parse" => return .parse (values.all "text")
  | "easter-table" => do
    let styles ← (values.all "dates").mapM fun style =>
      match YearTable.Style.ofName? style with
      | some style => .ok style
      | none => .error .misuse
    return .yearTable ((← optionalInt values "from-year").getD 2020)
      ((← optionalInt values "to-year").getD 2035) ((values.text? "anchors").getD "")
      (styles.getLast?.getD .monthDay) (← optionalInt values "list-month")
  | "pretty-month" =>
    match values.last? "greg" with
    | some [year, month] => return .month (some (← integer year, ← integer month))
    | _ => return .month none
  | "easter-scatter" =>
    return .scatter ((← optionalInt values "start-year").getD 1900)
      ((← optionalInt values "end-year").getD 2100) (values.given "with-pentecost")
      ((values.text? "outbase").getD "easter_scatter")
  | _ => throw .misuse

def isDateWord (word : String) : Bool :=
  let chars := word.toList
  let chars := if chars.getLast? = some '\n' then chars.dropLast else chars
  chars.length = 10 &&
    chars.zipIdx.all fun (c, place) =>
      if place = 4 || place = 7 then c = '-' else Text.isDigit c

/-- Puts the command of a day before a date that is the first word to be no option. -/
def expandDate (words : List String) : List String :=
  let options := words.takeWhile (startsWith "-")
  match words.dropWhile (startsWith "-") with
  | [] => words
  | word :: rest => if isDateWord word then options ++ "day" :: word :: rest else words

def helpGrammar : Grammar := ⟨[helpOption], []⟩
def topGrammar : Grammar := ⟨[helpOption, verboseOption], []⟩

/-- What no one knows of a word of options; asking for help ends the reading. -/
def switches (grammar : Grammar) (spec : OptionSpec) (tail : List Char) :
    Except Stop (List String) := do
  let reading ← Reading.takeOption grammar { pending := [] } spec tail
  if Values.given reading.values "help" then throw .help
  return reading.extras

/-- The options before the command, the words among them that no one knows, the name of the command
and the words after it. -/
def splitCommand (verbose : Bool) (unknown : List String) :
    List String → Except Stop (Bool × List String × String × List String)
  | [] => .error .misuse
  | word :: rest =>
    if word = "--" then .error .misuse
    else do
      match ← topGrammar.classify word with
      | .plain name => return (verbose, unknown, name, rest)
      | .option spec tail =>
        let extras ← switches topGrammar spec tail
        splitCommand true (unknown ++ extras) rest
      | .unknown text => splitCommand verbose (unknown ++ [text]) rest
      | .separator => throw .misuse

def passWords : List String → Except Stop (List String)
  | [] => .ok []
  | word :: rest =>
    if word = "--" then .ok (word :: rest)
    else do
      match ← helpGrammar.classify word with
      | .option spec tail => return (← switches helpGrammar spec tail) ++ (← passWords rest)
      | _ => return word :: (← passWords rest)

/-- Reads a command line. A word that may be short for two options is refused wherever it
stands. -/
def Line.read (words : List String) : Except Stop Line := do
  let words := expandDate words
  let _ ← topGrammar.classifyAll words
  let (verbose, unknown, name, rest) ← splitCommand false [] words
  match grammars.lookup name with
  | none => throw .misuse
  | some grammar =>
    let own ← passWords rest
    let values ← grammar.read (unknown ++ own)
    return ⟨verbose, ← ofValues name values⟩

end FeastCalendar.Command
