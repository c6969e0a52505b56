import FeastCalendar.Json.Basic
import FeastCalendar.Decimal.Shortest
import FeastCalendar.Text.Numeral
import FeastCalendar.Text.Quoted

/-!
Writing JSON text on one line or indented, with characters outside ASCII kept or escaped, and
writing values as diagnostics show them. Half of a surrogate pair is always escaped, so that what is
written is a string.
-/

namespace FeastCalendar.Json

open Decimal (NumberLayout Binary64)

/-- Numbers are written without an exponent from a ten-thousandth up to, but not with, ten to the
sixteenth; an exponent has two digits at least. -/
def wireNumbers : NumberLayout := ⟨-4, 16, 2, "Infinity", "NaN"⟩

structure Layout where
  /-- The blanks per level of nesting; without it all stands on one line. -/
  indent : Option Nat
  asciiOnly : Bool

def Layout.line : Layout := ⟨none, false⟩
def Layout.asciiLine : Layout := ⟨none, true⟩
def Layout.indented : Layout := ⟨some 2, false⟩
def Layout.asciiIndented : Layout := ⟨some 2, true⟩

def escapedUnit (n : Nat) : List Char := '\\' :: 'u' :: Text.hexDigits 4 n

def escapeChar (asciiOnly : Bool) (c : Char) : List Char :=
  if c = '"' then ['\\', '"']
  else if c = '\\' then ['\\', '\\']
  else if c = '\n' then ['\\', 'n']
  else if c = '\r' then ['\\', 'r']
  else if c = '\t' then ['\\', 't']
  else if c = '\x08' then ['\\', 'b']
  else if c = '\x0c' then ['\\', 'f']
  else if c.toNat < 32 then escapedUnit c.toNat
  else if !asciiOnly || c.toNat < 127 then [c]
  else if c.toNat < 0x10000 then escapedUnit c.toNat
  else
    let above := c.toNat - 0x10000
    escapedUnit (0xD800 + above / 0x400) ++ escapedUnit (0xDC00 + above % 0x400)

def escapePoint (asciiOnly : Bool) : CodePoint → List Char
  | .char c => escapeChar asciiOnly c
  | half => escapedUnit half.number

def writeString (asciiOnly : Bool) (text : Text) : List Char :=
  '"' :: text.flatMap (escapePoint asciiOnly) ++ ['"']

/-- The break before an item at a depth of nesting: none on one line but the blank after a comma. -/
def itemBreak (layout : Layout) (depth : Nat) (first : Bool) : List Char :=
  match layout.indent with
  | some width => '\n' :: List.replicate (width * depth) ' '
  | none => if first then [] else [' ']

mutual

def write (layout : Layout) (depth : Nat) : Json → List Char
  | null => "null".toList
  | bool value => if value then "true".toList else "false".toList
  | int value => (Text.intText value).toList
  | float value => (wireNumbers.render value).toList
  | str text => writeString layout.asciiOnly text
  | arr [] => ['[', ']']
  | arr (item :: items) =>
    '[' :: itemBreak layout (depth + 1) true ++ write layout (depth + 1) item ++
      writeItems layout (depth + 1) items ++ itemBreak layout depth true ++ [']']
  | obj [] => ['\x7b', '\x7d']
  | obj ((name, value) :: members) =>
    '\x7b' :: itemBreak layout (depth + 1) true ++ writeString layout.asciiOnly name ++ [':', ' '] ++
      write layout (depth + 1) value ++ writeMembers layout (depth + 1) members ++
      itemBreak layout depth true ++ ['\x7d']

def writeItems (layout : Layout) (depth : Nat) : List Json → List Char
  | [] => []
  | item :: items =>
    ',' :: itemBreak layout depth false ++ write layout depth item ++ writeItems layout depth items

def writeMembers (layout : Layout) (depth : Nat) : List (Text × Json) → List Char
  | [] => []
  | (name, value) :: members =>
    ',' :: itemBreak layout depth false ++ writeString layout.asciiOnly name ++ [':', ' '] ++
      write layout depth value ++ writeMembers layout depth members

end

def render (layout : Layout) (value : Json) : String := String.ofList (write layout 0 value)

def literalNumbers : NumberLayout := ⟨-4, 16, 2, "inf", "nan"⟩

mutual

/-- A value as messages quote it. -/
def literal : Json → String
  | null => "None"
  | bool value => if value then "True" else "False"
  | int value => Text.intText value
  | float value => literalNumbers.render value
  | str text => Text.quote text
  | arr items => "[" ++ Text.joinWith ", " (literals items) ++ "]"
  | obj members => "\x7b" ++ Text.joinWith ", " (memberLiterals members) ++ "\x7d"

def literals : List Json → List String
  | [] => []
  | item :: items => literal item :: literals items

def memberLiterals : List (Text × Json) → List String
  | [] => []
  | (name, value) :: members => (Text.quote name ++ ": " ++ literal value) :: memberLiterals members

end

/-- A value as running text: a string is its own text. -/
def display : Json → Text
  | str text => text
  | value => literal value

mutual

def isWritable : Json → Bool
  | int value => Text.isWritable value
  | arr items => areWritable items
  | obj members => areMembersWritable members
  | _ => true

def areWritable : List Json → Bool
  | [] => true
  | item :: items => isWritable item && areWritable items

def areMembersWritable : List (Text × Json) → Bool
  | [] => true
  | (_, value) :: members => isWritable value && areMembersWritable members

end

end FeastCalendar.Json
