import FeastCalendar.Anchor.Builtin
import FeastCalendar.Rule.Checked
import FeastCalendar.Text.Identifier

/-!
Rules from wordings such as "nine days before the feast" or "second Sunday after Easter". A wording
is read word by word, without regard to case, to the blanks between words and to full stops at its
end; the first shape that fits decides. A wording that fits none is kept as it is.
-/

namespace FeastCalendar.Phrase

def months : List (String × Int) := [
  ("january", 1), ("february", 2), ("march", 3), ("april", 4), ("may", 5), ("june", 6),
  ("july", 7), ("august", 8), ("september", 9), ("october", 10), ("november", 11), ("december", 12)]

def numberWords : List (String × Nat) := [
  ("one", 1), ("two", 2), ("three", 3), ("four", 4), ("five", 5), ("six", 6), ("seven", 7),
  ("eight", 8), ("nine", 9), ("ten", 10), ("eleven", 11), ("twelve", 12), ("thirty", 30),
  ("forty", 40)]

def ordinalWords : List (String × Int) := [
  ("first", 1), ("second", 2), ("third", 3), ("fourth", 4), ("fifth", 5),
  ("1st", 1), ("2nd", 2), ("3rd", 3), ("4th", 4), ("5th", 5)]

def aliases : Keyed String String := [
  ("easter_sunday", "easter"),
  ("ascension", "ascension_thursday"),
  ("ascension_day", "ascension_thursday"),
  ("the_ascension", "ascension_thursday"),
  ("pentecost_sunday", "pentecost"),
  ("holy_trinity", "trinity_sunday"),
  ("most_holy_trinity", "trinity_sunday"),
  ("sacred_heart_of_jesus", "sacred_heart"),
  ("most_sacred_heart_of_jesus", "sacred_heart"),
  ("immaculate_heart_of_mary", "immaculate_heart"),
  ("divine_mercy", "divine_mercy_sunday"),
  ("christ_the_king", "christ_king"),
  ("first_sunday_of_advent", "advent_1"),
  ("christmas_day", "christmas"),
  ("ash_wed", "ash_wednesday"),
  ("maundy_thursday", "holy_thursday")]

/-- What may stand before the name of an anchor, each once and in this order. -/
def introductions : List String :=
  ["the_", "feast_of_the_", "feast_of_", "solemnity_of_the_", "solemnity_of_"]

/-- A name that is an alias is left whole. -/
def dropIntroduction (key introduction : String) : String :=
  if introduction.toList.isPrefixOf key.toList && !Keyed.contains aliases key then
    String.ofList (key.toList.drop introduction.length)
  else key

def anchorKey (phrase : String) : String :=
  let key := introductions.foldl dropIntroduction (Text.identifier phrase)
  (Keyed.find? aliases key).getD key

/-- The words of a wording, in lower case. The last one is empty if blanks came before the full
stops at the end. -/
def words (text : String) : List String :=
  let clean := Text.squeeze (Text.lowerChars (Text.trimBlanks text.toList))
  (Text.splitAt ' ' (Text.dropTail (· = '.') clean)).map String.ofList

def number? (word : String) : Option (Except Failure Nat) :=
  if !word.isEmpty && word.toList.all Text.isDigit then
    some ((Text.boundedValue word.toList).mapError .numeral)
  else (numberWords.lookup word).map .ok

def weekday? (word : String) : Option Int :=
  (Civil.weekdayNames.findIdx? (· = word)).map Int.ofNat

def isDayWord (word : String) : Bool := word = "day" || word = "days"

def monthDay? (word : String) : Option Int :=
  let digits := word.toList.takeWhile Text.isDigit
  let ending := String.ofList (word.toList.dropWhile Text.isDigit)
  if (digits.length = 1 || digits.length = 2) && ["", "st", "nd", "rd", "th"].contains ending then
    some (Text.digitsValue digits)
  else none

def anchorOf? (rest : List String) : Option Json :=
  let phrase := Text.joinWith " " rest
  if phrase.isEmpty then none else some (.str (anchorKey phrase))

def dropArticle : List String → List String
  | "the" :: rest => rest
  | rest => rest

/-- "nine days before the feast". -/
def beforeFeast? : List String → Option (Except Failure Rule)
  | word :: days :: "before" :: rest => do
    let count ← number? word
    if isDayWord days && [["feast"], ["feastday"], ["feast", "day"]].contains (dropArticle rest) then
      some do Rule.beforeFeast? (.int (← count)) .null
    else none
  | _ => none

/-- "june 29". -/
def fixed? : List String → Option (Except Failure Rule)
  | [name, number] => do
    let month ← months.lookup name
    let day ← monthDay? number
    if 1 ≤ day && day ≤ 31 then some (Rule.fixed? (.int month) (.int day)) else none
  | _ => none

def relative (anchor : Json) (offset : Int) (snap : Option (Int × Civil.SnapPolicy)) :
    Except Failure Rule :=
  match snap with
  | some (weekday, policy) => Rule.relative? anchor (.int offset) (.int weekday) (.str policy.name)
  | none => Rule.relative? anchor (.int offset) .null (.str Civil.SnapPolicy.onOrAfter.name)

/-- "the sunday 9 days before christmas". -/
def weekdayDaysBefore? (words : List String) : Option (Except Failure Rule) :=
  match dropArticle words with
  | day :: word :: days :: "before" :: rest => do
    let weekday ← weekday? day
    let count ← number? word
    let anchor ← anchorOf? rest
    if isDayWord days then some do relative anchor (-(← count)) (some (weekday, .onOrBefore))
    else none
  | _ => none

/-- "3 days before ash wednesday". -/
def daysBefore? : List String → Option (Except Failure Rule)
  | word :: days :: "before" :: rest => do
    let count ← number? word
    let anchor ← anchorOf? rest
    if isDayWord days then some do relative anchor (-(← count)) none else none
  | _ => none

/-- "10 days after easter". -/
def daysAfter? : List String → Option (Except Failure Rule)
  | word :: days :: "after" :: rest => do
    let count ← number? word
    let anchor ← anchorOf? rest
    if isDayWord days then some do relative anchor (← count) none else none
  | _ => none

/-- "second sunday after easter"; without an ordinal the first is meant. -/
def weekdayAfter? (words : List String) : Option (Except Failure Rule) :=
  let (count, words) := match dropArticle words with
    | word :: rest => match ordinalWords.lookup word with
      | some count => (count, rest)
      | none => (1, word :: rest)
    | [] => (1, [])
  match words with
  | day :: "after" :: rest => do
    let weekday ← weekday? day
    let anchor ← anchorOf? rest
    some (Rule.nthWeekdayAfter? anchor (.int weekday) (.int count))
  | _ => none

/-- "friday before palm sunday": the last one strictly before. -/
def weekdayBefore? (words : List String) : Option (Except Failure Rule) :=
  match dropArticle words with
  | day :: "before" :: rest => do
    let weekday ← weekday? day
    let anchor ← anchorOf? rest
    some (relative anchor (-1) (some (weekday, .onOrBefore)))
  | _ => none

def shapes : List (List String → Option (Except Failure Rule)) :=
  [beforeFeast?, fixed?, weekdayDaysBefore?, daysBefore?, daysAfter?, weekdayAfter?, weekdayBefore?]

/-- The rule of a wording, where `known` are the anchors that may be named alone. -/
def parse (text : String) (known : List Text) : Except Failure Rule :=
  match shapes.findSome? fun shape => shape (words text) with
  | some rule => rule
  | none =>
    let key := anchorKey (Text.joinWith " " (words text))
    if known.contains key then Rule.anchor? (.str key)
    else .ok (.raw (.str (Text.strip text)))

def parseBuiltin (text : String) : Except Failure Rule :=
  parse text (Keyed.keys Definitions.builtin)

end FeastCalendar.Phrase
