import FeastCalendar.Json.Basic
import FeastCalendar.Text.Numeral

/-!
Reading JSON text. Of members under one key the last counts; the words for infinities and for the
undefined number are taken too. Nothing but blanks may follow the value. Integers may have only so
many digits, and arrays and objects may be nested only so deep; of several faults the first is told.
-/

namespace FeastCalendar.Json

open Decimal (Binary64)

inductive ReadFault where
  | malformed
  | numeral (fault : Text.NumeralFault)
  | tooDeep
deriving DecidableEq, Repr

abbrev nestingLimit : Nat := 990

def skipBlanks (text : List Char) : List Char :=
  text.dropWhile fun c => c = ' ' || c = '\t' || c = '\n' || c = '\r'

def isDigit (c : Char) : Bool := 48 ≤ c.toNat && c.toNat ≤ 57

def hexValue? (c : Char) : Option Nat :=
  let n := c.toNat
  if 48 ≤ n && n ≤ 57 then some (n - 48)
  else if 65 ≤ n && n ≤ 70 then some (n - 55)
  else if 97 ≤ n && n ≤ 102 then some (n - 87)
  else none

def hexUnit? (a b c d : Char) : Option Nat := do
  some (((← hexValue? a) * 16 + (← hexValue? b)) * 256 + (← hexValue? c) * 16 + (← hexValue? d))

def simpleEscape? : Char → Option Char
  | '"' => some '"'
  | '\\' => some '\\'
  | '/' => some '/'
  | 'b' => some '\x08'
  | 'f' => some '\x0c'
  | 'n' => some '\n'
  | 'r' => some '\r'
  | 't' => some '\t'
  | _ => none

def joined? (high low : Nat) : Option Char :=
  if 0xD800 ≤ high && high < 0xDC00 && 0xDC00 ≤ low && low < 0xE000 then
    some (Char.ofNat (0x10000 + (high - 0xD800) * 0x400 + (low - 0xDC00)))
  else none

def unitAhead? : List Char → Option Nat
  | '\\' :: 'u' :: a :: b :: c :: d :: _ => hexUnit? a b c d
  | _ => none

def readString : Nat → List Char → Option (Text × List Char)
  | 0, _ => none
  | fuel + 1, text => match text with
    | '"' :: rest => some ([], rest)
    | '\\' :: 'u' :: a :: b :: c :: d :: rest => do
      let unit ← hexUnit? a b c d
      match (unitAhead? rest).bind (joined? unit) with
      | some char => do
        let (points, rest) ← readString fuel (rest.drop 6)
        some (.char char :: points, rest)
      | none => do
        let (points, rest) ← readString fuel rest
        some (.ofNumber unit :: points, rest)
    | '\\' :: c :: rest => do
      let char ← simpleEscape? c
      let (points, rest) ← readString fuel rest
      some (.char char :: points, rest)
    | c :: rest =>
      if c.toNat < 32 || c = '\\' then none
      else do
        let (points, rest) ← readString fuel rest
        some (.char c :: points, rest)
    | [] => none

/-- The digits of a whole part, at least one; none follows a zero. -/
def readWhole (text : List Char) : Option (List Char × List Char) :=
  match text with
  | '0' :: rest => some (['0'], rest)
  | _ => match text.takeWhile isDigit with
    | [] => none
    | digits => some (digits, text.dropWhile isDigit)

/-- The digits after a point; a point without digits is no part of the number. -/
def readFraction (text : List Char) : List Char × List Char :=
  match text with
  | '.' :: rest => match rest.takeWhile isDigit with
    | [] => ([], text)
    | digits => (digits, rest.dropWhile isDigit)
  | _ => ([], text)

/-- The power of ten; a letter without digits is no part of the number. -/
def readExponent (text : List Char) : Option Int × List Char :=
  match text with
  | [] => (none, text)
  | c :: rest =>
    if c = 'e' || c = 'E' then
      let (negative, rest) := match rest with
        | '-' :: rest => (true, rest)
        | '+' :: rest => (false, rest)
        | rest => (false, rest)
      match rest.takeWhile isDigit with
      | [] => (none, text)
      | digits =>
        let power : Int := Text.digitsValue digits
        (some (if negative then -power else power), rest.dropWhile isDigit)
    else (none, text)

def orMalformed {α : Type} : Option α → Except ReadFault α
  | some value => .ok value
  | none => .error .malformed

def readNumber (text : List Char) : Except ReadFault (Json × List Char) := do
  let (negative, text) := match text with
    | '-' :: rest => (true, rest)
    | rest => (false, rest)
  let (whole, text) ← orMalformed (readWhole text)
  let (fraction, text) := readFraction text
  let (power?, text) := readExponent text
  if fraction.isEmpty && power?.isNone then
    let value : Int ← (Text.boundedValue whole).mapError .numeral
    return (int (if negative then -value else value), text)
  else
    let exponent : Int := power?.getD 0 - fraction.length
    return (float (Binary64.ofDecimal negative (Text.digitsValue (whole ++ fraction)) exponent), text)

mutual

/-- A value at the front of the text, which starts with no blank; `room` levels may still be
entered. -/
def readValue : Nat → Nat → List Char → Except ReadFault (Json × List Char)
  | 0, _, _ => .error .malformed
  | fuel + 1, room, text => match text with
    | '\x7b' :: rest => match room with
      | 0 => .error .tooDeep
      | room + 1 => match skipBlanks rest with
        | '\x7d' :: rest => .ok (obj [], rest)
        | rest => do
          let (members, rest) ← readMembers fuel room rest
          return (obj (Keyed.ofEntries members), rest)
    | '[' :: rest => match room with
      | 0 => .error .tooDeep
      | room + 1 => match skipBlanks rest with
        | ']' :: rest => .ok (arr [], rest)
        | rest => do
          let (items, rest) ← readItems fuel room rest
          return (arr items, rest)
    | '"' :: rest => do
      let (text, rest) ← orMalformed (readString (rest.length + 1) rest)
      return (str text, rest)
    | 'n' :: 'u' :: 'l' :: 'l' :: rest => .ok (null, rest)
    | 't' :: 'r' :: 'u' :: 'e' :: rest => .ok (bool true, rest)
    | 'f' :: 'a' :: 'l' :: 's' :: 'e' :: rest => .ok (bool false, rest)
    | 'N' :: 'a' :: 'N' :: rest => .ok (float Binary64.nan, rest)
    | 'I' :: 'n' :: 'f' :: 'i' :: 'n' :: 'i' :: 't' :: 'y' :: rest =>
      .ok (float (Binary64.infinity false), rest)
    | '-' :: 'I' :: 'n' :: 'f' :: 'i' :: 'n' :: 'i' :: 't' :: 'y' :: rest =>
      .ok (float (Binary64.infinity true), rest)
    | text => readNumber text

def readItems : Nat → Nat → List Char → Except ReadFault (List Json × List Char)
  | 0, _, _ => .error .malformed
  | fuel + 1, room, text => do
    let (item, rest) ← readValue fuel room text
    match skipBlanks rest with
    | ',' :: rest => do
      let (items, rest) ← readItems fuel room (skipBlanks rest)
      return (item :: items, rest)
    | ']' :: rest => return ([item], rest)
    | _ => throw .malformed

def readMembers : Nat → Nat → List Char → Except ReadFault (List (Text × Json) × List Char)
  | 0, _, _ => .error .malformed
  | fuel + 1, room, text => match text with
    | '"' :: rest => do
      let (name, rest) ← orMalformed (readString (rest.length + 1) rest)
      match skipBlanks rest with
      | ':' :: rest => do
        let (value, rest) ← readValue fuel room (skipBlanks rest)
        match skipBlanks rest with
        | ',' :: rest => do
          let (members, rest) ← readMembers fuel room (skipBlanks rest)
          return ((name, value) :: members, rest)
        | '\x7d' :: rest => return ([(name, value)], rest)
        | _ => throw .malformed
      | _ => throw .malformed
    | _ => .error .malformed

end

/-- The value of a whole text, nested no deeper than `depth`. Every step takes a character at least,
so the length of the text bounds their number. -/
def parse (depth : Nat) (text : String) : Except ReadFault Json := do
  let chars := text.toList
  let (value, rest) ← readValue (chars.length + 1) depth (skipBlanks chars)
  if (skipBlanks rest).isEmpty then return value else throw .malformed

end FeastCalendar.Json
