import FeastCalendar.Text.Numeral

/-!
Command-line words: options, which may be shortened as long as they stay unique or carry their value
after an equals sign, and positional words. After a lone double hyphen every word is positional.
-/

namespace FeastCalendar.Command

structure OptionSpec where
  name : String
  spellings : List String
  /-- How many words follow it. -/
  arity : Nat

structure Positional where
  name : String
  /-- Whether it takes all words that stand together. -/
  many : Bool

structure Grammar where
  options : List OptionSpec
  positionals : List Positional

inductive Stop where
  | misuse
  | help
deriving DecidableEq, Repr

inductive Word where
  | plain (text : String)
  | separator
  /-- An option, and what follows its spelling in the same word. -/
  | option (spec : OptionSpec) (tail : List Char)
  | unknown (text : String)

def startsWith (start text : String) : Bool := start.toList.isPrefixOf text.toList

def splitEquals (word : String) : String × List Char :=
  let chars := word.toList
  (String.ofList (chars.takeWhile (· ≠ '=')), chars.dropWhile (· ≠ '='))

/-- Negative numbers, with a fraction or without, are values. -/
def isNegativeNumber (word : String) : Bool :=
  match word.toList with
  | '-' :: body =>
    let body := match body.reverse with
      | '\n' :: rest => rest.reverse
      | _ => body
    let whole := body.takeWhile Text.isDigit
    match body.dropWhile Text.isDigit with
    | [] => !whole.isEmpty
    | '.' :: fraction => !fraction.isEmpty && fraction.all Text.isDigit
    | _ => false
  | _ => false

namespace Grammar

def spellings (grammar : Grammar) : List (String × OptionSpec) :=
  grammar.options.flatMap fun spec => spec.spellings.map (·, spec)

/-- The options that a word may be short for. A short option may have its letter joined to more. -/
def expansions (grammar : Grammar) (word : String) : List Word :=
  if startsWith "--" word then
    let (start, tail) := splitEquals word
    (grammar.spellings.filter fun entry => startsWith start entry.1).map fun (_, spec) =>
      .option spec tail
  else
    let short := String.ofList (word.toList.take 2)
    grammar.spellings.filterMap fun (spelling, spec) =>
      if spelling = short then some (.option spec (word.toList.drop 2))
      else if startsWith word spelling then some (.option spec [])
      else none

def spelled? (grammar : Grammar) (spelling : String) : Option OptionSpec :=
  grammar.spellings.lookup spelling

def classifyOption (grammar : Grammar) (word : String) : Except Stop Word :=
  let (start, tail) := splitEquals word
  match grammar.spelled? word, grammar.spelled? start with
  | some spec, _ => .ok (.option spec [])
  | none, some spec => .ok (.option spec tail)
  | none, none => match grammar.expansions word with
    | [option] => .ok option
    | _ :: _ :: _ => .error .misuse
    | [] =>
      if isNegativeNumber word || word.toList.contains ' ' then .ok (.plain word)
      else .ok (.unknown word)

def classify (grammar : Grammar) (word : String) : Except Stop Word :=
  if startsWith "-" word && 1 < word.length then grammar.classifyOption word else .ok (.plain word)

def classifyAll (grammar : Grammar) : List String → Except Stop (List Word)
  | [] => .ok []
  | word :: rest =>
    if word = "--" then .ok (.separator :: rest.map .plain)
    else do return (← grammar.classify word) :: (← grammar.classifyAll rest)

end Grammar

structure Reading where
  /-- An option whose words are still to come, with their number. -/
  awaiting : Option (String × Nat × List String) := none
  pending : List Positional
  current : Option String := none
  /-- A separator that no positional word has followed yet. -/
  separated : Bool := false
  values : List (String × List String) := []
  extras : List String := []

namespace Reading

def record (reading : Reading) (name : String) (words : List String) : Reading :=
  { reading with values := reading.values ++ [(name, words)] }

def interrupt (reading : Reading) : Reading := { reading with current := none }

def position (reading : Reading) (text : String) : Reading :=
  let reading := { reading with separated := false }
  match reading.pending with
  | next :: rest =>
    let reading := { reading with pending := rest, current := some (if next.many then next.name else "") }
    reading.record next.name [text]
  | [] => match reading.current with
    | some name =>
      if name.isEmpty then { reading with extras := reading.extras ++ [text] }
      else reading.record name [text]
    | none => { reading with extras := reading.extras ++ [text] }

/-- Reads an option with what follows its spelling: a value after an equals sign, or the letters of
more options if it takes no words. From the first letter that is no option on, these are a word that
no one knows. -/
def takeOption (grammar : Grammar) (reading : Reading) (spec : OptionSpec) :
    List Char → Except Stop Reading
  | [] =>
    if spec.arity = 0 then .ok (reading.record spec.name [])
    else .ok { reading with awaiting := some (spec.name, spec.arity, []) }
  | letter :: rest =>
    if spec.arity = 1 then
      .ok (reading.record spec.name [String.ofList (if letter = '=' then rest else letter :: rest)])
    else if spec.arity ≠ 0 || letter = '=' || letter = '-' then .error .misuse
    else
      let reading := reading.record spec.name []
      match grammar.spelled? (String.ofList ['-', letter]) with
      | some next => takeOption grammar reading next rest
      | none =>
        .ok { reading with extras := reading.extras ++ [String.ofList ('-' :: letter :: rest)] }

def step (grammar : Grammar) (reading : Reading) (word : Word) : Except Stop Reading :=
  match reading.awaiting, word with
  | some (name, missing, words), .plain text =>
    if missing ≤ 1 then .ok ({ reading with awaiting := none }.record name (words ++ [text]))
    else .ok { reading with awaiting := some (name, missing - 1, words ++ [text]) }
  | some _, _ => .error .misuse
  | none, .plain text => .ok (reading.position text)
  | none, .separator => .ok { reading with separated := reading.current.isNone }
  | none, .option spec tail => takeOption grammar reading.interrupt spec tail
  | none, .unknown text => .ok { reading.interrupt with extras := reading.extras ++ [text] }

end Reading

def Grammar.read (grammar : Grammar) (words : List String) :
    Except Stop (List (String × List String)) := do
  let classified ← grammar.classifyAll words
  let reading ← classified.foldlM (Reading.step grammar) { pending := grammar.positionals }
  if reading.awaiting.isSome || reading.separated || !reading.extras.isEmpty ||
      !reading.pending.isEmpty then
    throw .misuse
  return reading.values

end FeastCalendar.Command
