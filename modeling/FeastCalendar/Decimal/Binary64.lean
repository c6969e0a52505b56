/-!
Binary floating-point numbers of 64 bits, held as their bits. A finite number is its sign and
`significand * 2 ^ scale`; the nearest number to a decimal is found in exact arithmetic, ties going
to the even significand.
-/

namespace FeastCalendar.Decimal

structure Binary64 where
  bits : UInt64
deriving DecidableEq, Repr, Inhabited

namespace Binary64

abbrev signBit : Nat := Nat.pow 2 63

abbrev fractionLimit : Nat := Nat.pow 2 52

def isNegative (x : Binary64) : Bool := signBit ≤ x.bits.toNat

def exponentField (x : Binary64) : Nat := x.bits.toNat / fractionLimit % 2048

def fractionField (x : Binary64) : Nat := x.bits.toNat % fractionLimit

def isFinite (x : Binary64) : Bool := x.exponentField != 2047

def isNaN (x : Binary64) : Bool := x.exponentField == 2047 && x.fractionField != 0

def significand (x : Binary64) : Nat :=
  if x.exponentField = 0 then x.fractionField else fractionLimit + x.fractionField

def scale (x : Binary64) : Int :=
  if x.exponentField = 0 then -1074 else (x.exponentField : Int) - 1075

def signed (negative : Bool) (magnitude : Nat) : Binary64 :=
  ⟨UInt64.ofNat (if negative then signBit + magnitude else magnitude)⟩

def infinity (negative : Bool) : Binary64 := signed negative (2047 * fractionLimit)

def nan : Binary64 := signed false (2047 * fractionLimit + Nat.pow 2 51)

def scaled (n : Nat) (scale : Int) : Nat × Nat :=
  if 0 ≤ scale then (n * Nat.pow 2 scale.toNat, 1) else (n, Nat.pow 2 (-scale).toNat)

/-- The quotient to the nearest integer, a half going to the even neighbour. -/
def roundedQuotient (numerator denominator : Nat) : Nat :=
  let quotient := numerator / denominator
  let rest := numerator % denominator
  if 2 * rest < denominator then quotient
  else if denominator < 2 * rest then quotient + 1
  else quotient + quotient % 2

/-- The bits, sign aside, of the nearest number to a positive quotient. -/
def nearestMagnitude (numerator denominator : Nat) : Nat :=
  let units := fun (scale : Int) =>
    if 0 ≤ scale then (numerator, denominator * Nat.pow 2 scale.toNat)
    else (numerator * Nat.pow 2 (-scale).toNat, denominator)
  let low : Int := max (-1074) ((numerator.log2 : Int) - (denominator.log2 : Int) - 53)
  let floor := (units low).1 / (units low).2
  let scale := if 2 * fractionLimit ≤ floor then low + 1 else low
  let significand := roundedQuotient (units scale).1 (units scale).2
  if significand < fractionLimit then significand
  else min (2047 * fractionLimit) ((scale + 1075).toNat * fractionLimit + (significand - fractionLimit))

/-- The nearest number to `digits * 10 ^ exponent`, of either sign. Decimals beyond the range are
told by their size alone, so that no huge power is formed. -/
def ofDecimal (negative : Bool) (digits : Nat) (exponent : Int) : Binary64 :=
  let size : Int := ((Nat.toDigits 10 digits).length : Int) + exponent
  if digits = 0 || size < -330 then signed negative 0
  else if 310 < size then infinity negative
  else if 0 ≤ exponent then signed negative (nearestMagnitude (digits * Nat.pow 10 exponent.toNat) 1)
  else signed negative (nearestMagnitude digits (Nat.pow 10 (-exponent).toNat))

end Binary64

end FeastCalendar.Decimal
