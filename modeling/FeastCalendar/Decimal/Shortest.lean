import FeastCalendar.Decimal.Binary64

/-!
The shortest decimal that reads back as a given binary number, and of those the nearest: on the
grids of 1, 2, … 17 digits the two neighbours of the value are tried, and the first grid with a
neighbour inside the interval of reals that round to the number wins.
-/

namespace FeastCalendar.Decimal

open Binary64

structure Shortest where
  digits : Nat
  exponent : Int
deriving DecidableEq, Repr

namespace Shortest

/-- Twice the significand, with the ends of the interval, in units of `2 ^ (scale - 2)`. -/
structure Interval where
  lower : Nat
  value : Nat
  upper : Nat
  closed : Bool

/-- Below a power of two the numbers stand twice as dense. -/
def interval (x : Binary64) : Interval :=
  let m := x.significand
  let dense := m == fractionLimit && 1 < x.exponentField
  ⟨4 * m - (if dense then 1 else 2), 4 * m, 4 * m + 2, m % 2 == 0⟩

def sides (scale : Int) (exponent : Int) (n d : Nat) : Nat × Nat :=
  let binary := scaled n (scale - 2)
  let decimal := if 0 ≤ exponent then (d * Nat.pow 10 exponent.toNat, 1) else (d, Nat.pow 10 (-exponent).toNat)
  (binary.1 * decimal.2, decimal.1 * binary.2)

def reaches (x : Binary64) (exponent : Int) (d : Nat) : Bool :=
  let ends := interval x
  let low := sides x.scale exponent ends.lower d
  let high := sides x.scale exponent ends.upper d
  if ends.closed then low.1 ≤ low.2 && high.2 ≤ high.1 else low.1 < low.2 && high.2 < high.1

def gridFloor (x : Binary64) (exponent : Int) : Nat :=
  let pair := sides x.scale exponent (interval x).value 1
  pair.1 / pair.2

/-- The better of the two neighbours on a grid: the nearer, and of two as near the even one. -/
def candidate? (x : Binary64) (exponent : Int) : Option Nat :=
  let below := gridFloor x exponent
  match reaches x exponent below && below != 0, reaches x exponent (below + 1) with
  | false, false => none
  | true, false => some below
  | false, true => some (below + 1)
  | true, true =>
    let middle := sides x.scale exponent (2 * (interval x).value) (2 * below + 1)
    if middle.1 < middle.2 then some below
    else if middle.2 < middle.1 then some (below + 1)
    else some (below + below % 2)

/-- The number of digits before the point of a value that is at least one, and one less than minus
the number of zeros after the point of a smaller value: the place of its leading digit. -/
def leadingPlace (x : Binary64) : Int :=
  let size := scaled x.significand x.scale
  if size.2 ≤ size.1 then ((Nat.toDigits 10 (size.1 / size.2)).length : Int) - 1
  else -((Nat.toDigits 10 ((size.2 - 1) / size.1)).length : Int)

def search (x : Binary64) (leading : Int) : Nat → Nat → Shortest
  | 0, _ => ⟨gridFloor x (leading - 16), leading - 16⟩
  | fuel + 1, count =>
    let exponent := leading - (count : Int)
    match candidate? x exponent with
    | some digits => ⟨digits, exponent⟩
    | none => search x leading fuel (count + 1)

def trimZeros : Nat → Shortest → Shortest
  | 0, decimal => decimal
  | fuel + 1, decimal =>
    if decimal.digits % 10 = 0 && decimal.digits != 0 then
      trimZeros fuel ⟨decimal.digits / 10, decimal.exponent + 1⟩
    else decimal

def ofBinary (x : Binary64) : Shortest :=
  if x.significand = 0 then ⟨0, 0⟩ else trimZeros 20 (search x (leadingPlace x) 17 0)

end Shortest

structure NumberLayout where
  /-- Values from `10 ^ least` and below `10 ^ limit` are written without an exponent. -/
  least : Int
  limit : Int
  exponentDigits : Nat
  infinityText : String
  nanText : String

namespace NumberLayout

def zeros (n : Int) : List Char := List.replicate n.toNat '0'

def positional (digits : List Char) (exponent : Int) : List Char :=
  let point : Int := digits.length + exponent
  if point ≤ 0 then '0' :: '.' :: zeros (-point) ++ digits
  else if 0 ≤ exponent then digits ++ zeros exponent ++ ['.', '0']
  else digits.take point.toNat ++ '.' :: digits.drop point.toNat

def scientific (layout : NumberLayout) (digits : List Char) (exponent : Int) : List Char :=
  let power : Int := digits.length + exponent - 1
  let powerDigits := Nat.toDigits 10 power.natAbs
  let mantissa := match digits with
    | first :: second :: rest => first :: '.' :: second :: rest
    | short => short
  mantissa ++ 'e' :: (if power < 0 then '-' else '+') ::
    List.replicate (layout.exponentDigits - powerDigits.length) '0' ++ powerDigits

def render (layout : NumberLayout) (x : Binary64) : String :=
  if x.isNaN then layout.nanText
  else
    let sign := if x.isNegative then ['-'] else []
    if !x.isFinite then String.ofList sign ++ layout.infinityText
    else
      let decimal := Shortest.ofBinary x
      let digits := Nat.toDigits 10 decimal.digits
      let place : Int := digits.length + decimal.exponent - 1
      let body :=
        if layout.least ≤ place && place < layout.limit then positional digits decimal.exponent
        else scientific layout digits decimal.exponent
      String.ofList (sign ++ body)

end NumberLayout

end FeastCalendar.Decimal
