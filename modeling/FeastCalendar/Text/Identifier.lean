import FeastCalendar.Text.Blank
import FeastCalendar.Text.Lower

/-!
Identifiers made from titles and phrases: the runs of ASCII letters and digits of the lower-case
text, joined by underscores. Apostrophes vanish and an ampersand is the word it stands for.
-/

namespace FeastCalendar.Text

def isIdentifierChar (c : Char) : Bool :=
  let n := c.toNat
  (97 ≤ n && n ≤ 122) || (48 ≤ n && n ≤ 57)

def spellOut (c : Char) : List Char :=
  if c = '’' || c = '\'' then []
  else if c = '&' then [' ', 'a', 'n', 'd', ' ']
  else [c]

/-- The maximal runs of identifier characters. -/
def identifierRuns : List Char → List (List Char)
  | [] => []
  | c :: rest =>
    if isIdentifierChar c then
      match rest, identifierRuns rest with
      | next :: _, run :: runs =>
        if isIdentifierChar next then (c :: run) :: runs else [c] :: run :: runs
      | _, runs => [c] :: runs
    else identifierRuns rest

def joinRuns : List (List Char) → List Char
  | [] => []
  | [run] => run
  | run :: runs => run ++ '_' :: joinRuns runs

def identifierChars (text : List Char) : List Char :=
  joinRuns (identifierRuns ((lowerChars text).flatMap spellOut))

def identifier (text : String) : String := String.ofList (identifierChars text.toList)

end FeastCalendar.Text
