import FeastCalendar.Text.Digit
import FeastCalendar.Text.Quoted

/-!
Integers as text. Reading takes surrounding blanks other than the information separators, one sign,
decimal digits of any script and single underscores between digits, as many digits as the limit
allows; the limit holds for writing too, which pads with zeros.
-/

namespace FeastCalendar.Text

/-- Digits with single underscores between them; `after` holds just after a digit. -/
def groupedDigits? : Bool → List Char → Option (List Char)
  | after, [] => if after then some [] else none
  | after, c :: rest =>
    if isDigit c then (groupedDigits? true rest).map (c :: ·)
    else if c = '_' && after then groupedDigits? false rest
    else none

/-- No numeral has more digits than this. -/
abbrev digitLimit : Nat := 4300

inductive NumeralFault where
  | notANumber (text : String)
  | tooLong (digits : Nat)
deriving DecidableEq, Repr

namespace NumeralFault

def message : NumeralFault → String
  | notANumber text =>
    "invalid literal for int() with base 10: " ++ String.ofList ((quoteChars text).take 200)
  | tooLong digits =>
    "Exceeds the limit (" ++ toString digitLimit ++
      " digits) for integer string conversion: value has " ++ toString digits ++
      " digits; use sys.set_int_max_str_digits() to increase the limit"

end NumeralFault

def boundedValue (digits : List Char) : Except NumeralFault Nat :=
  if digitLimit < digits.length then .error (.tooLong digits.length) else .ok (digitsValue digits)

/-- The number spelled in `digits`, which are a part of `text`. The digits at the front are counted
before what follows them is looked at. -/
def magnitude (text : String) (digits : List Char) : Except NumeralFault Nat :=
  let belongs := fun c => isDigit c || c = '_'
  match groupedDigits? false (digits.takeWhile belongs) with
  | none => .error (.notANumber text)
  | some run => do
    let value ← boundedValue run
    if (digits.dropWhile belongs).isEmpty then return value else throw (.notANumber text)

def isNumeralBlank (c : Char) : Bool := isBlank c && !(28 ≤ c.toNat && c.toNat ≤ 31)

def readInt (text : String) : Except NumeralFault Int :=
  match dropTail isNumeralBlank (text.toList.dropWhile isNumeralBlank) with
  | '-' :: rest => (magnitude text rest).map fun n => -(n : Int)
  | '+' :: rest => (magnitude text rest).map fun n => (n : Int)
  | rest => (magnitude text rest).map fun n => (n : Int)

def natDigits (n : Nat) : List Char := Nat.toDigits 10 n

/-- The sign does not count towards the limit. -/
def isWritable (n : Int) : Bool := decide ((natDigits n.natAbs).length ≤ digitLimit)

def intText (n : Int) : String :=
  if n < 0 then String.ofList ('-' :: natDigits n.natAbs) else String.ofList (natDigits n.natAbs)

/-- A sign counts towards the width. -/
def zeroPadded (width : Nat) (n : Int) : String :=
  let digits := natDigits n.natAbs
  let zeros := fun room => List.replicate (room - digits.length) '0' ++ digits
  String.ofList (if n < 0 then '-' :: zeros (width - 1) else zeros width)

end FeastCalendar.Text
