/-!
# Hexadecimal digits

Lower-case hexadecimal text of numbers, with and without a fixed width, and the
value of a digit of either case.
-/
namespace DocQuery.Hex

/-- The value of a hexadecimal digit of either case. -/
def digit? (c : Char) : Option Nat :=
  if '0' ≤ c ∧ c ≤ '9' then some (c.toNat - '0'.toNat)
  else if 'a' ≤ c ∧ c ≤ 'f' then some (c.toNat - 'a'.toNat + 10)
  else if 'A' ≤ c ∧ c ≤ 'F' then some (c.toNat - 'A'.toNat + 10)
  else none

/-- The number written by a sequence of hexadecimal digits. -/
def value? (cs : List Char) : Option Nat :=
  cs.foldlM (fun n c => (digit? c).map (16 * n + ·)) 0

/-- Exactly `width` digits, the high ones cut off. -/
def fixed : Nat → Nat → List Char
  | 0, _ => []
  | width + 1, n => fixed width (n / 16) ++ [Nat.digitChar (n % 16)]

/-- The fewest digits, one for zero. -/
def short (n : Nat) : String :=
  String.ofList (Nat.toDigits 16 n)

end DocQuery.Hex
