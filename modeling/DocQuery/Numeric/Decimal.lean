import DocQuery.Numeric.Double

/-!
# Decimal text of binary64 numbers

A number is written with the fewest decimal digits that lie among the reals
rounding to it; of several, the nearest to the number. `Layout` records where an
output format differs from another: the exponents written positionally, the sign
of an exponent, and the digits of an exact tie.

Numerals are read in two roundings: the digits to the nearest number, then the
product or quotient with the power of ten.
-/
namespace DocQuery

/-- A positive decimal, `coefficient · 10 ^ exponent`. -/
structure Decimal where
  coefficient : Nat
  exponent : Int
  deriving DecidableEq, Repr

namespace Decimal

def digits (d : Decimal) : List Char :=
  Nat.toDigits 10 d.coefficient

/-- The exponent of the first digit. -/
def leading (d : Decimal) : Int :=
  d.exponent + d.digits.length - 1

end Decimal

/-- The reals between two quotients of one denominator, with or without both ends. -/
structure Interval where
  low : Nat
  high : Nat
  denominator : Nat
  closed : Bool
  deriving DecidableEq, Repr

namespace Interval

def contains (i : Interval) (numerator denominator : Nat) : Bool :=
  let low := i.low * denominator
  let high := i.high * denominator
  let point := numerator * i.denominator
  if i.closed then low ≤ point && point ≤ high else low < point && point < high

end Interval

namespace Double

/-- Four times the significand in units of `2 ^ -1076`. -/
def quarters (x : Double) : Nat :=
  4 * x.significand * twoTo x.scale

/-- The reals that round to a finite number: half a unit to each side, but a
quarter below a power of two, where the numbers lie twice as close. -/
def roundingInterval (x : Double) : Interval :=
  let unit := twoTo x.scale
  let below := if x.significand = hiddenBit ∧ 0 < x.scale then unit else 2 * unit
  { low := x.quarters - below
    high := x.quarters + 2 * unit
    denominator := twoTo 1076
    closed := x.significand % 2 = 0 }

/-- The exponent of the first decimal digit of a positive quotient. -/
def decimalExponent (numerator denominator : Nat) : Int :=
  if denominator ≤ numerator then (Nat.toDigits 10 (numerator / denominator)).length - 1
  else -((Nat.toDigits 10 ((denominator - 1) / numerator)).length : Int)

/-- The decimals of one grid next to a number that read back as it, the nearer
one if there are two. -/
def decimalOnGrid? (tie : Tie) (x : Double) (exponent : Int) : Option Decimal :=
  let up := tenTo exponent.toNat
  let down := tenTo (-exponent).toNat
  let numerator := x.quarters * down
  let denominator := twoTo 1076 * up
  let floor := numerator / denominator
  let nearest := roundQuotient tie numerator denominator
  let reads (c : Nat) : Bool := x.roundingInterval.contains (c * up) down
  let other := if nearest = floor then floor + 1 else floor
  if reads nearest then some ⟨nearest, exponent⟩
  else if reads other then some ⟨other, exponent⟩
  else none

/-- The shortest decimal that reads back as a positive finite number. -/
def shortest (tie : Tie) (x : Double) : Decimal :=
  let leading := decimalExponent x.quarters (twoTo 1076)
  let hit := (List.range 17).findSome? fun (n : Nat) => x.decimalOnGrid? tie (leading - n)
  hit.getD ⟨0, 0⟩

/-- What an output format decides about the text of a number. -/
structure Layout where
  tie : Tie
  /-- the least exponent of a first digit that is written positionally -/
  leastPositional : Int
  /-- the greatest exponent of a first digit that is written positionally -/
  greatestPositional : Int
  /-- positive exponents carry a plus sign -/
  plus : Bool
  deriving DecidableEq, Repr

/-- Documents: positional from `0.00001` below `1e+16`, with signed exponents. -/
def documentLayout : Layout := ⟨.even, -5, 15, true⟩

/-- Messages that show a constant: positional from `0.0001` below `1e16`. -/
def debugLayout : Layout := ⟨.up, -4, 15, false⟩

/-- Digits around a decimal point, with at least one digit on each side. -/
def positional (digits : List Char) (leading : Int) : List Char :=
  if leading < 0 then
    '0' :: '.' :: (List.replicate (-leading - 1).toNat '0' ++ digits)
  else
    let whole := leading.toNat + 1
    if digits.length ≤ whole then
      digits ++ List.replicate (whole - digits.length) '0' ++ ['.', '0']
    else digits.take whole ++ '.' :: digits.drop whole

/-- Digits with the point after the first, and the exponent of the first. -/
def scientific (plus : Bool) (digits : List Char) (leading : Int) : List Char :=
  let mantissa := match digits with
    | first :: second :: rest => first :: '.' :: second :: rest
    | few => few
  let sign := if leading < 0 then ['-'] else if plus then ['+'] else []
  mantissa ++ 'e' :: (sign ++ Nat.toDigits 10 leading.natAbs)

def Layout.write (layout : Layout) (d : Decimal) : List Char :=
  let digits := (d.digits.reverse.dropWhile (· = '0')).reverse
  if layout.leastPositional ≤ d.leading ∧ d.leading ≤ layout.greatestPositional then
    positional digits d.leading
  else scientific layout.plus digits d.leading

def text (layout : Layout) (x : Double) : String :=
  if x.isNaN then "NaN"
  else
    let sign := if x.isNegative then ['-'] else []
    let body :=
      if x.isInfinite then ['i', 'n', 'f']
      else if x.magnitude = 0 then ['0', '.', '0']
      else layout.write (x.shortest layout.tie)
    String.ofList (sign ++ body)

/-- The longest run of leading digits that fits in 64 bits together with what was
read before, and how many digits it has. -/
def absorb : Nat → List Nat → Nat × Nat
  | read, [] => (read, 0)
  | read, digit :: rest =>
    if FitsWord (10 * read + digit) then
      let (value, count) := absorb (10 * read + digit) rest
      (value, count + 1)
    else (read, 0)

/-- A number scaled by a power of ten; none if it leaves the finite numbers. -/
def scaleByTen? (x : Double) (exponent : Int) : Option Double :=
  if x.magnitude = 0 then some x
  else if 308 < exponent then none
  else if 0 ≤ exponent then
    let scaled := x.mul (.ofNat (tenTo exponent.toNat))
    if scaled.isFinite then some scaled else none
  else if -308 ≤ exponent then
    some (x.div (.ofNat (tenTo (-exponent).toNat)))
  else if -616 ≤ exponent then
    some ((x.div (.ofNat (tenTo 308))).div (.ofNat (tenTo (-exponent - 308).toNat)))
  else some .zero

def ofNumeral? (negative : Bool) (whole fraction : List Nat) (exponent : Int) : Option Double :=
  let (wholeValue, wholeCount) := absorb 0 whole
  let scaled :=
    if wholeCount < whole.length then
      scaleByTen? (.ofNat wholeValue) (exponent + (whole.length - wholeCount))
    else
      let (value, count) := absorb wholeValue fraction
      scaleByTen? (.ofNat value) (exponent - count)
  scaled.map fun x => if negative then x.negate else x

end Double
end DocQuery
