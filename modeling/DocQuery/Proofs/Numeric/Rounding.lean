import DocQuery.Numeric.Double
import DocQuery.Numeric.Word
import Mathlib.Algebra.Ring.Nat

/-!
# Rounding integers

The binary64 number nearest to an integer grows with the integer: of two integers the
smaller one never gets the greater number (`orderKey_ofInt_mono`), though both may get
the same one. Two integers of 64 bits with the same nearest number are at most 2048
apart (`natAbs_sub_le_of_ofInt_eq`), the distance of neighbouring numbers just below
`2 ^ 64`.
-/
namespace DocQuery

theorem Tie.roundsUp_mono {tie : Tie} {quotient r s denominator : Nat} (le : r ≤ s)
    (up : tie.roundsUp quotient r denominator = true) :
    tie.roundsUp quotient s denominator = true := by
  have half := Tie.le_of_roundsUp up
  rcases Nat.eq_or_lt_of_le le with rfl | less
  · exact up
  · simp only [Tie.roundsUp]
    rw [if_neg (by omega), if_neg (by omega)]

theorem le_roundQuotient (tie : Tie) (n d : Nat) : n / d ≤ roundQuotient tie n d := by
  simp only [roundQuotient]
  split <;> omega

theorem roundQuotient_le (tie : Tie) (n d : Nat) : roundQuotient tie n d ≤ n / d + 1 := by
  simp only [roundQuotient]
  split <;> omega

/-- Over one denominator a greater numerator is not rounded to less. -/
theorem roundQuotient_mono (tie : Tie) {m n d : Nat} (le : m ≤ n) :
    roundQuotient tie m d ≤ roundQuotient tie n d := by
  have quotients : m / d ≤ n / d := Nat.div_le_div_right le
  rcases Nat.eq_or_lt_of_le quotients with same | less
  · have remainders : m % d ≤ n % d := by
      have first := Nat.div_add_mod m d
      have second := Nat.div_add_mod n d
      rw [same] at first
      omega
    simp only [roundQuotient, same]
    by_cases up : tie.roundsUp (n / d) (m % d) d = true
    · apply Nat.le_of_eq
      rw [if_pos up, if_pos (Tie.roundsUp_mono remainders up)]
    · rw [if_neg up]
      split <;> omega
  · have above := roundQuotient_le tie m d
    have below := le_roundQuotient tie n d
    omega

/-- A whole quotient is not changed. -/
theorem roundQuotient_mul (tie : Tie) (q : Nat) {d : Nat} (positive : 0 < d) :
    roundQuotient tie (q * d) d = q := by
  simp [roundQuotient, Tie.roundsUp, positive]

namespace Double

/-- The units that an integer is measured in before rounding: 53 binary digits of it
are left of the point. -/
def wholeUnit (n : Nat) : Nat := 2 ^ (n.log2 - 52)

/-- The integer, scaled up to 53 binary digits if it has fewer. -/
def wholeNumerator (n : Nat) : Nat := n * 2 ^ (52 - n.log2)

/-- The significand that an integer is rounded to. -/
def wholeSignificand (n : Nat) : Nat :=
  roundQuotient .even (wholeNumerator n) (wholeUnit n)

theorem wholeUnit_pos (n : Nat) : 0 < wholeUnit n :=
  Nat.two_pow_pos _

/-- The scale of an integer is its binary logarithm. -/
theorem nearestMagnitude_whole {n : Nat} (positive : 0 < n) :
    nearestMagnitude n 1 = (n.log2 + 1022) * hiddenBit + wholeSignificand n := by
  have below : 2 ^ n.log2 ≤ n := Nat.log2_self_le (by omega)
  have logOne : Nat.log2 1 = 0 := by decide
  have floor : ¬ n * twoTo (-(n.log2 : Int)).toNat < 1 * twoTo (n.log2 : Int).toNat := by
    simp only [Int.toNat_neg_natCast, Int.toNat_natCast, twoTo, Nat.pow_eq, Nat.pow_zero]
    omega
  have scale : ((n.log2 : Int) + 1022).toNat = n.log2 + 1022 := by omega
  have up : (-(((n.log2 + 1022 : Nat) : Int) - 1074)).toNat = 52 - n.log2 := by omega
  have down : (((n.log2 + 1022 : Nat) : Int) - 1074).toNat = n.log2 - 52 := by omega
  simp only [nearestMagnitude, logOne, Int.ofNat_zero, Int.sub_zero]
  rw [if_neg floor, scale, up, down, Nat.one_mul]
  rfl

/-- The scaled integer has 53 binary digits left of the point. -/
theorem wholeNumerator_bounds {n : Nat} (positive : 0 < n) :
    hiddenBit * wholeUnit n ≤ wholeNumerator n ∧
      wholeNumerator n < 2 * hiddenBit * wholeUnit n := by
  have grid : 2 ^ n.log2 * 2 ^ (52 - n.log2) = hiddenBit * wholeUnit n := by
    have exponents : n.log2 + (52 - n.log2) = 52 + (n.log2 - 52) := by omega
    rw [← Nat.pow_add, exponents, Nat.pow_add]
    rfl
  have below : 2 ^ n.log2 ≤ n := Nat.log2_self_le (by omega)
  have above : n < 2 * 2 ^ n.log2 := by
    have := Nat.lt_log2_self (n := n)
    omega
  constructor
  · rw [← grid]
    exact Nat.mul_le_mul_right _ below
  · rw [Nat.mul_assoc, ← grid, ← Nat.mul_assoc]
    exact Nat.mul_lt_mul_of_pos_right above (Nat.two_pow_pos _)

/-- Rounding may carry into one more digit. -/
theorem wholeSignificand_bounds {n : Nat} (positive : 0 < n) :
    hiddenBit ≤ wholeSignificand n ∧ wholeSignificand n ≤ 2 * hiddenBit := by
  obtain ⟨below, above⟩ := wholeNumerator_bounds positive
  have least := roundQuotient_mono .even (d := wholeUnit n) below
  have most := roundQuotient_mono .even (d := wholeUnit n) (Nat.le_of_lt above)
  rw [roundQuotient_mul _ _ (wholeUnit_pos n)] at least most
  exact ⟨least, most⟩

theorem nearestMagnitude_mono {m n : Nat} (positive : 0 < m) (le : m ≤ n) :
    nearestMagnitude m 1 ≤ nearestMagnitude n 1 := by
  have nonzero : 0 < n := by omega
  have logs : m.log2 ≤ n.log2 :=
    (Nat.le_log2 (by omega)).mpr (Nat.le_trans (Nat.log2_self_le (by omega)) le)
  rw [nearestMagnitude_whole positive, nearestMagnitude_whole nonzero]
  rcases Nat.eq_or_lt_of_le logs with same | less
  · -- On one grid rounding itself is monotone.
    have significands : wholeSignificand m ≤ wholeSignificand n := by
      simp only [wholeSignificand, wholeNumerator, wholeUnit, same]
      exact roundQuotient_mono .even (Nat.mul_le_mul_right _ le)
    rw [same]
    omega
  · -- On different grids a carry reaches at most the least number of the next one.
    have most := (wholeSignificand_bounds positive).2
    have least := (wholeSignificand_bounds nonzero).1
    have scales : (m.log2 + 1022) * hiddenBit + hiddenBit ≤ (n.log2 + 1022) * hiddenBit := by
      rw [← Nat.succ_mul]
      exact Nat.mul_le_mul_right _ (by omega)
    omega

/-- The magnitude of the number nearest to a natural number. -/
def wholeMagnitude (n : Nat) : Nat :=
  if n = 0 then 0 else min (nearestMagnitude n 1) infiniteMagnitude

theorem wholeMagnitude_pos {n : Nat} (positive : 0 < n) : 0 < wholeMagnitude n := by
  have least := (wholeSignificand_bounds positive).1
  rw [wholeMagnitude, if_neg (by omega), nearestMagnitude_whole positive]
  simp only [hiddenBit, infiniteMagnitude] at least ⊢
  omega

theorem wholeMagnitude_mono {m n : Nat} (le : m ≤ n) : wholeMagnitude m ≤ wholeMagnitude n := by
  unfold wholeMagnitude
  by_cases zero : m = 0
  · simp [zero]
  · have magnitudes := nearestMagnitude_mono (Nat.pos_of_ne_zero zero) le
    rw [if_neg zero, if_neg (by omega)]
    omega

/-- The key of a number is its magnitude with its sign. -/
theorem orderKey_ofMagnitude (negative : Bool) (magnitude : Nat) :
    (ofMagnitude negative magnitude).orderKey =
      if negative then -((min magnitude infiniteMagnitude : Nat) : Int)
      else (min magnitude infiniteMagnitude : Nat) := by
  have bounded : min magnitude infiniteMagnitude ≤ infiniteMagnitude := Nat.min_le_right _ _
  unfold ofMagnitude
  generalize min magnitude infiniteMagnitude = b at bounded
  simp only [infiniteMagnitude] at bounded
  cases negative with
  | true =>
    have word : (UInt64.ofNat (signBit + b)).toNat = signBit + b := by
      rw [UInt64.toNat_ofNat', signBit]
      omega
    have sign : signBit ≤ signBit + b := by omega
    have rest : (signBit + b) % signBit = b := by
      rw [signBit]
      omega
    simp only [orderKey, isNegative, Double.magnitude, if_true, word, sign, decide_true, rest]
  | false =>
    have word : (UInt64.ofNat b).toNat = b := by
      rw [UInt64.toNat_ofNat']
      omega
    have sign : ¬ signBit ≤ b := by
      rw [signBit]
      omega
    have rest : b % signBit = b := Nat.mod_eq_of_lt (by omega)
    simp [orderKey, isNegative, Double.magnitude, word, sign, rest]

theorem ofInt_eq (n : Int) : ofInt n = ofMagnitude (n < 0) (wholeMagnitude n.natAbs) := by
  unfold ofInt ofQuotient wholeMagnitude
  by_cases zero : n.natAbs = 0
  · simp only [zero, if_true]
  · simp only [zero, if_false, ofMagnitude, Nat.min_assoc, Nat.min_self]

theorem orderKey_ofInt (n : Int) :
    (ofInt n).orderKey =
      if n < 0 then -(wholeMagnitude n.natAbs : Int) else wholeMagnitude n.natAbs := by
  have bounded : min (wholeMagnitude n.natAbs) infiniteMagnitude = wholeMagnitude n.natAbs := by
    unfold wholeMagnitude
    split <;> omega
  rw [ofInt_eq, orderKey_ofMagnitude, bounded]
  simp only [decide_eq_true_eq]

/-- A smaller integer does not get a greater number. -/
theorem orderKey_ofInt_mono {m n : Int} (le : m ≤ n) :
    (ofInt m).orderKey ≤ (ofInt n).orderKey := by
  rw [orderKey_ofInt, orderKey_ofInt]
  by_cases negative : n < 0
  · have magnitudes : wholeMagnitude n.natAbs ≤ wholeMagnitude m.natAbs :=
      wholeMagnitude_mono (by omega)
    rw [if_pos (by omega), if_pos negative]
    omega
  · rw [if_neg negative]
    split
    · omega
    · have magnitudes : wholeMagnitude m.natAbs ≤ wholeMagnitude n.natAbs :=
        wholeMagnitude_mono (by omega)
      omega

/-- Two integers whose numbers have one place in the order have one sign, and numbers of
one magnitude. -/
theorem magnitudes_of_orderKey_eq {m n : Int}
    (same : (ofInt m).orderKey = (ofInt n).orderKey) :
    (m < 0 ↔ n < 0) ∧ wholeMagnitude m.natAbs = wholeMagnitude n.natAbs := by
  have positive {k : Int} (negative : k < 0) : 0 < wholeMagnitude k.natAbs :=
    wholeMagnitude_pos (by omega)
  rw [orderKey_ofInt, orderKey_ofInt] at same
  by_cases first : m < 0
  · have here := positive first
    by_cases second : n < 0
    · rw [if_pos first, if_pos second] at same
      exact ⟨by simp [first, second], by omega⟩
    · rw [if_pos first, if_neg second] at same
      omega
  · by_cases second : n < 0
    · have there := positive second
      rw [if_neg first, if_pos second] at same
      omega
    · rw [if_neg first, if_neg second] at same
      exact ⟨by simp [first, second], by omega⟩

theorem ofInt_eq_iff (m n : Int) :
    ofInt m = ofInt n ↔ (ofInt m).orderKey = (ofInt n).orderKey := by
  constructor
  · intro same
    rw [same]
  · intro same
    obtain ⟨signs, magnitudes⟩ := magnitudes_of_orderKey_eq same
    simp only [ofInt_eq, signs, magnitudes]

theorem wholeUnit_of_fine {n : Nat} (fine : n.log2 ≤ 52) : wholeUnit n = 1 := by
  rw [wholeUnit, Nat.sub_eq_zero_of_le fine, Nat.pow_zero]

/-- A number of at most 53 binary digits is not rounded. -/
theorem wholeSignificand_of_fine {n : Nat} (fine : n.log2 ≤ 52) :
    wholeSignificand n = wholeNumerator n := by
  have whole := roundQuotient_mul .even (wholeNumerator n) (wholeUnit_pos n)
  rw [wholeUnit_of_fine fine, Nat.mul_one] at whole
  rw [wholeSignificand, wholeUnit_of_fine fine, whole]

/-- A longer number is within half a unit of its rounded value. -/
theorem wholeSignificand_error {n : Nat} (coarse : 52 ≤ n.log2) :
    2 * n ≤ 2 * (wholeSignificand n * wholeUnit n) + wholeUnit n ∧
      2 * (wholeSignificand n * wholeUnit n) ≤ 2 * n + wholeUnit n := by
  have numerator : wholeNumerator n = n := by
    rw [wholeNumerator, Nat.sub_eq_zero_of_le coarse, Nat.pow_zero, Nat.mul_one]
  have upper := le_two_mul_roundQuotient .even (wholeNumerator n) (wholeUnit_pos n)
  have lower := two_mul_roundQuotient_le .even (wholeNumerator n) (wholeUnit_pos n)
  rw [numerator] at upper lower
  rw [wholeSignificand, numerator]
  exact ⟨upper, lower⟩

theorem log2_le_of_word {n : Nat} (positive : 0 < n) (word : n < 2 ^ 64) : n.log2 ≤ 63 :=
  Nat.le_of_lt_succ ((Nat.log2_lt (by omega)).mpr word)

theorem wholeUnit_le_of_word {n : Nat} (positive : 0 < n) (word : n < 2 ^ 64) :
    wholeUnit n ≤ 2048 := by
  have log := log2_le_of_word positive word
  calc wholeUnit n ≤ 2 ^ 11 := Nat.pow_le_pow_right (by decide) (by omega)
    _ = 2048 := rfl

theorem wholeMagnitude_of_word {n : Nat} (positive : 0 < n) (word : n < 2 ^ 64) :
    wholeMagnitude n = (n.log2 + 1022) * hiddenBit + wholeSignificand n := by
  have log := log2_le_of_word positive word
  have most := (wholeSignificand_bounds positive).2
  rw [wholeMagnitude, if_neg (by omega), nearestMagnitude_whole positive]
  simp only [hiddenBit, infiniteMagnitude] at most ⊢
  omega

/-- Two natural numbers of 64 bits with one nearest number are at most as far apart as
neighbouring numbers are at the upper end. -/
theorem le_add_of_wholeMagnitude_eq {m n : Nat} (le : m ≤ n) (word : n < 2 ^ 64)
    (same : wholeMagnitude m = wholeMagnitude n) : n ≤ m + 2048 := by
  rcases Nat.eq_zero_or_pos n with rfl | nonzero
  · omega
  have positive : 0 < m := by
    rcases Nat.eq_zero_or_pos m with rfl | positive
    · have above := wholeMagnitude_pos nonzero
      rw [← same] at above
      cases above
    · exact positive
  have logs : m.log2 ≤ n.log2 :=
    (Nat.le_log2 (by omega)).mpr (Nat.le_trans (Nat.log2_self_le (by omega)) le)
  have unit := wholeUnit_le_of_word nonzero word
  obtain ⟨leastM, mostM⟩ := wholeSignificand_bounds positive
  obtain ⟨leastN, mostN⟩ := wholeSignificand_bounds nonzero
  rw [wholeMagnitude_of_word positive (by omega), wholeMagnitude_of_word nonzero word] at same
  -- Either both lie on one grid, or the smaller one is carried to the next grid.
  have grids : (m.log2 = n.log2 ∧ wholeSignificand m = wholeSignificand n) ∨
      (n.log2 = m.log2 + 1 ∧ wholeSignificand m = 2 * hiddenBit ∧
        wholeSignificand n = hiddenBit) := by
    simp only [hiddenBit] at leastM mostM leastN mostN same ⊢
    omega
  rcases grids with ⟨log, significand⟩ | ⟨log, carried, least⟩
  · rcases Nat.le_total n.log2 52 with fine | coarse
    · rw [wholeSignificand_of_fine (log ▸ fine), wholeSignificand_of_fine fine, wholeNumerator,
        wholeNumerator, log] at significand
      have equal := Nat.mul_right_cancel (Nat.two_pow_pos _) significand
      omega
    · have errorM := (wholeSignificand_error (log ▸ coarse)).2
      have errorN := (wholeSignificand_error coarse).1
      have units : wholeUnit m = wholeUnit n := by rw [wholeUnit, log, wholeUnit]
      rw [significand, units] at errorM
      omega
  · rcases Nat.lt_or_ge m.log2 52 with fine | coarse
    · -- What is not rounded is not carried.
      have below := (wholeNumerator_bounds positive).2
      rw [wholeSignificand_of_fine (Nat.le_of_lt fine)] at carried
      rw [wholeUnit_of_fine (Nat.le_of_lt fine)] at below
      omega
    · have coarseN : 52 ≤ n.log2 := by omega
      have errorM := (wholeSignificand_error coarse).2
      have errorN := (wholeSignificand_error coarseN).1
      have units : wholeUnit n = 2 * wholeUnit m := by
        have exponents : n.log2 - 52 = (m.log2 - 52) + 1 := by omega
        rw [wholeUnit, exponents, Nat.pow_succ, Nat.mul_comm, wholeUnit]
      rw [carried] at errorM
      rw [least, units] at errorN
      simp only [hiddenBit] at errorM errorN
      omega

/-- Two integers of 64 bits with one nearest number are at most 2048 apart. -/
theorem natAbs_sub_le_of_ofInt_eq {m n : Int} (wordM : FitsWord m) (wordN : FitsWord n)
    (same : ofInt m = ofInt n) : (m - n).natAbs ≤ 2048 := by
  obtain ⟨signs, magnitudes⟩ := magnitudes_of_orderKey_eq ((ofInt_eq_iff m n).mp same)
  obtain ⟨lowM, highM⟩ := wordM
  obtain ⟨lowN, highN⟩ := wordN
  rcases Nat.le_total m.natAbs n.natAbs with le | le
  · have distance := le_add_of_wholeMagnitude_eq le (by omega) magnitudes
    omega
  · have distance := le_add_of_wholeMagnitude_eq le (by omega) magnitudes.symm
    omega

end Double
end DocQuery
