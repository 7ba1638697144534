import DocQuery.Numeric.Double
import Mathlib.Tactic.Ring
import Mathlib.Tactic.Linarith
import Mathlib.Tactic.Positivity

/-!
# Values of binary64 numbers

A word stands for a whole multiple of the least positive number, `2 ^ -1074`. The order
keys of two words are in the order of their values (`compare_orderKey`), because a greater
magnitude is a greater multiple, also where it passes on to the next scale.
-/
namespace DocQuery.Double

/-- The multiple of the least positive number that a magnitude stands for. -/
def unitsOf (magnitude : Nat) : Nat :=
  if magnitude < hiddenBit then magnitude
  else (hiddenBit + magnitude % hiddenBit) * 2 ^ (magnitude / hiddenBit - 1)

/-- The multiple of the least positive number that a word stands for. -/
def units (x : Double) : Int :=
  if x.isNegative then -(x.significand * 2 ^ x.scale : Nat) else (x.significand * 2 ^ x.scale : Nat)

/-- The value of a word. -/
def value (x : Double) : ℚ := x.units / 2 ^ 1074

theorem significand_mul_scale (x : Double) :
    x.significand * 2 ^ x.scale = unitsOf x.magnitude := by
  unfold significand scale unitsOf
  split
  next small => rw [Nat.div_eq_of_lt small, Nat.zero_sub, Nat.pow_zero, Nat.mul_one]
  · rfl

/-- The next magnitude is a greater multiple, also where it passes on to the next scale. -/
theorem unitsOf_lt_succ (m : Nat) : unitsOf m < unitsOf (m + 1) := by
  unfold unitsOf
  by_cases small : m + 1 < hiddenBit
  · rw [if_pos small, if_pos (by omega)]
    omega
  rw [if_neg small]
  by_cases subnormal : m < hiddenBit
  · have first : m + 1 = hiddenBit := by omega
    have unit : (hiddenBit + hiddenBit % hiddenBit) * 2 ^ (hiddenBit / hiddenBit - 1) = hiddenBit := by
      decide
    rw [if_pos subnormal, first, unit]
    exact subnormal
  rw [if_neg subnormal]
  simp only [hiddenBit] at small subnormal ⊢
  by_cases within : m % 4503599627370496 + 1 < 4503599627370496
  · have scale : (m + 1) / 4503599627370496 = m / 4503599627370496 := by omega
    rw [scale]
    exact Nat.mul_lt_mul_of_pos_right (by omega) (Nat.two_pow_pos _)
  · have scale : (m + 1) / 4503599627370496 - 1 = m / 4503599627370496 - 1 + 1 := by omega
    rw [scale, Nat.pow_succ, Nat.mul_comm (2 ^ _) 2, ← Nat.mul_assoc]
    exact Nat.mul_lt_mul_of_pos_right (by omega) (Nat.two_pow_pos _)

theorem unitsOf_strictMono : StrictMono unitsOf :=
  strictMono_nat_of_lt_succ unitsOf_lt_succ

theorem unitsOf_eq_zero_iff (m : Nat) : unitsOf m = 0 ↔ m = 0 :=
  unitsOf_strictMono.injective.eq_iff' rfl

/-- Words are in the order of the multiples that they stand for. -/
theorem units_lt_units_iff (x y : Double) : x.units < y.units ↔ x.orderKey < y.orderKey := by
  have above := unitsOf_strictMono.lt_iff_lt (a := x.magnitude) (b := y.magnitude)
  have below := unitsOf_strictMono.lt_iff_lt (a := y.magnitude) (b := x.magnitude)
  have zeroX := unitsOf_eq_zero_iff x.magnitude
  have zeroY := unitsOf_eq_zero_iff y.magnitude
  simp only [units, orderKey, significand_mul_scale]
  cases x.isNegative <;> cases y.isNegative <;>
    simp only [if_true, if_false, Bool.false_eq_true] <;> omega

/-- Words are in the order of their values. -/
theorem compare_orderKey (x y : Double) :
    compare x.orderKey y.orderKey = compare x.value y.value := by
  have positive : (0 : ℚ) < 2 ^ 1074 := by positivity
  have less (x y : Double) : x.value < y.value ↔ x.orderKey < y.orderKey := by
    rw [value, value, div_lt_div_iff_of_pos_right positive, Int.cast_lt, units_lt_units_iff]
  rcases lt_trichotomy x.value y.value with before | equal | behind
  · rw [compare_lt_iff_lt.mpr before, compare_lt_iff_lt.mpr ((less x y).mp before)]
  · have same : x.orderKey = y.orderKey := by
      have forth := (less x y).not.mp (by rw [equal]; exact lt_irrefl _)
      have back := (less y x).not.mp (by rw [equal]; exact lt_irrefl _)
      omega
    rw [compare_eq_iff_eq.mpr equal, compare_eq_iff_eq.mpr same]
  · rw [compare_gt_iff_gt.mpr behind, compare_gt_iff_gt.mpr ((less y x).mp behind)]

end DocQuery.Double
