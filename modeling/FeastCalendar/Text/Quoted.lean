import FeastCalendar.Text.Basic
import FeastCalendar.Text.Blank
import FeastCalendar.Text.Printable

/-!
Quoted text as diagnostics show it: between single quotes, or between double quotes where the text
holds a single and no double quote, with backslash escapes for what cannot be printed.
-/

namespace FeastCalendar.Text

def hexDigit (n : Nat) : Char := Char.ofNat (if n < 10 then 48 + n else 87 + n)

def hexDigits : Nat → Nat → List Char
  | 0, _ => []
  | width + 1, n => hexDigits width (n / 16) ++ [hexDigit (n % 16)]

def quoteMark (text : Text) : Char :=
  if text.contains (.char '\'') && !text.contains (.char '"') then '"' else '\''

def quoteChar (mark c : Char) : List Char :=
  if c = mark || c = '\\' then ['\\', c]
  else if c = '\n' then ['\\', 'n']
  else if c = '\r' then ['\\', 'r']
  else if c = '\t' then ['\\', 't']
  else if isPrintable c then [c]
  else if c.toNat < 0x100 then '\\' :: 'x' :: hexDigits 2 c.toNat
  else if c.toNat < 0x10000 then '\\' :: 'u' :: hexDigits 4 c.toNat
  else '\\' :: 'U' :: hexDigits 8 c.toNat

def quotePoint (mark : Char) : CodePoint → List Char
  | .char c => quoteChar mark c
  | .surrogate offset => '\\' :: 'u' :: hexDigits 4 (CodePoint.surrogate offset).number

def quoteChars (text : Text) : List Char :=
  let mark := quoteMark text
  mark :: text.flatMap (quotePoint mark) ++ [mark]

def quote (text : Text) : String := String.ofList (quoteChars text)

/-- A name and its fields, as in `Name(field=value, other=value)`. -/
def recordText (name : String) (fields : List (String × String)) : String :=
  name ++ "(" ++ joinWith ", " (fields.map fun field => field.1 ++ "=" ++ field.2) ++ ")"

/-- Texts in parentheses; a lone one is followed by a comma. -/
def tupleText : List String → String
  | [text] => "(" ++ text ++ ",)"
  | texts => "(" ++ joinWith ", " texts ++ ")"

end FeastCalendar.Text
