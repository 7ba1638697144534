import DocQuery.Numeric.Rounding
import DocQuery.Numeric.Word

/-!
# Binary64 numbers

A number is its 64-bit word. Finite words are read exactly as
`significand · 2 ^ exponent`, and all arithmetic is exact arithmetic on natural
numbers followed by one rounding to the nearest number, ties to even.

`orderKey` sends a word to an integer whose order is the numeric order: both
zeros have key zero, and the infinities lie outside all finite numbers.
-/
namespace DocQuery

/-- A binary64 number, held as its word. -/
structure Double where
  bits : UInt64
  deriving DecidableEq, Repr

namespace Double

def signBit : Nat := 0x8000000000000000

/-- The leading bit that the significand of a normal number has and its word leaves out. -/
def hiddenBit : Nat := 0x10000000000000

/-- The magnitude of the infinities; greater magnitudes are not numbers. -/
def infiniteMagnitude : Nat := 0x7ff0000000000000

def magnitude (x : Double) : Nat := x.bits.toNat % signBit

def isNegative (x : Double) : Bool := signBit ≤ x.bits.toNat

def isFinite (x : Double) : Bool := x.magnitude < infiniteMagnitude

def isInfinite (x : Double) : Bool := x.magnitude = infiniteMagnitude

def isNaN (x : Double) : Bool := infiniteMagnitude < x.magnitude

/-- The number of a sign and a magnitude; too great a magnitude is infinite. -/
def ofMagnitude (negative : Bool) (magnitude : Nat) : Double :=
  let bounded := min magnitude infiniteMagnitude
  ⟨UInt64.ofNat (if negative then signBit + bounded else bounded)⟩

def zero : Double := ⟨0⟩

def infinity : Double := ofMagnitude false infiniteMagnitude

def negativeInfinity : Double := ofMagnitude true infiniteMagnitude

def nan : Double := ⟨0x7ff8000000000000⟩

def negate (x : Double) : Double := ofMagnitude (!x.isNegative) x.magnitude

/-- The integer whose order is the numeric order of finite and infinite numbers. -/
def orderKey (x : Double) : Int :=
  if x.isNegative then -(x.magnitude : Int) else x.magnitude

/-- The whole significand of a finite magnitude. -/
def significand (x : Double) : Nat :=
  if x.magnitude < hiddenBit then x.magnitude else hiddenBit + x.magnitude % hiddenBit

/-- The power of two that scales the significand, offset by 1074: never negative. -/
def scale (x : Double) : Nat :=
  x.magnitude / hiddenBit - 1

/-- The magnitude nearest to a positive quotient: the scale is chosen so that the
rounded significand has 53 bits, or fewer at the smallest scale. -/
def nearestMagnitude (numerator denominator : Nat) : Nat :=
  let estimate : Int := (Nat.log2 numerator : Int) - Nat.log2 denominator
  let floorLog : Int :=
    if numerator * twoTo (-estimate).toNat < denominator * twoTo estimate.toNat then estimate - 1
    else estimate
  let scale : Nat := (floorLog + 1022).toNat
  let shift : Int := scale - 1074
  let significand :=
    roundQuotient .even (numerator * twoTo (-shift).toNat) (denominator * twoTo shift.toNat)
  scale * hiddenBit + significand

/-- The number nearest to a signed quotient of natural numbers. -/
def ofQuotient (negative : Bool) (numerator denominator : Nat) : Double :=
  if numerator = 0 then ofMagnitude negative 0
  else ofMagnitude negative (nearestMagnitude numerator denominator)

def ofNat (n : Nat) : Double := ofQuotient false n 1

/-- The number nearest to an integer. -/
def ofInt (n : Int) : Double := ofQuotient (n < 0) n.natAbs 1

/-- The product of two finite magnitudes, rounded. -/
def mul (x y : Double) : Double :=
  ofQuotient (x.isNegative != y.isNegative)
    (x.significand * y.significand * twoTo (x.scale + y.scale)) (twoTo 2148)

/-- The quotient of two finite magnitudes, rounded; the divisor is not zero. -/
def div (x y : Double) : Double :=
  ofQuotient (x.isNegative != y.isNegative)
    (x.significand * twoTo x.scale) (y.significand * twoTo y.scale)

/-- Numeric equality: the zeros are equal and infinities equal themselves. -/
def sameValue (x y : Double) : Bool := x.orderKey = y.orderKey

end Double
end DocQuery
