/-!
# Rounding a quotient

A quotient of natural numbers rounded to a whole number, a tie going to the even
neighbour or up. `roundQuotient` is within half a unit of the quotient
(`two_mul_roundQuotient_le`, `le_two_mul_roundQuotient`).
-/
namespace DocQuery

/-- Where a quotient half way between two whole numbers goes. -/
inductive Tie where
  | even | up
  deriving DecidableEq, Repr

/-- A remainder over a denominator asks for the next whole number. -/
def Tie.roundsUp (tie : Tie) (quotient remainder denominator : Nat) : Bool :=
  if 2 * remainder < denominator then false
  else if 2 * remainder = denominator then
    match tie with
    | .even => quotient % 2 = 1
    | .up => true
  else true

/-- The whole number nearest to a quotient. -/
def roundQuotient (tie : Tie) (numerator denominator : Nat) : Nat :=
  let quotient := numerator / denominator
  if tie.roundsUp quotient (numerator % denominator) denominator then quotient + 1 else quotient

theorem Tie.le_of_roundsUp {tie : Tie} {q r d : Nat} (h : tie.roundsUp q r d = true) :
    d ≤ 2 * r := by
  apply Nat.le_of_not_lt
  intro below
  simp [Tie.roundsUp, below] at h

theorem Tie.le_of_not_roundsUp {tie : Tie} {q r d : Nat} (h : ¬ tie.roundsUp q r d = true) :
    2 * r ≤ d := by
  apply Nat.le_of_not_lt
  intro above
  apply h
  simp only [Tie.roundsUp]
  rw [if_neg (by omega), if_neg (by omega)]

theorem two_mul_roundQuotient_le (tie : Tie) (n : Nat) {d : Nat} (h : 0 < d) :
    2 * (roundQuotient tie n d * d) ≤ 2 * n + d := by
  have whole := Nat.div_add_mod n d
  have small := Nat.mod_lt n h
  have comm : n / d * d = d * (n / d) := Nat.mul_comm _ _
  simp only [roundQuotient]
  by_cases up : tie.roundsUp (n / d) (n % d) d = true
  · have := Tie.le_of_roundsUp up
    rw [if_pos up, Nat.add_mul]
    omega
  · rw [if_neg up]
    omega

theorem le_two_mul_roundQuotient (tie : Tie) (n : Nat) {d : Nat} (h : 0 < d) :
    2 * n ≤ 2 * (roundQuotient tie n d * d) + d := by
  have whole := Nat.div_add_mod n d
  have small := Nat.mod_lt n h
  have comm : n / d * d = d * (n / d) := Nat.mul_comm _ _
  simp only [roundQuotient]
  by_cases up : tie.roundsUp (n / d) (n % d) d = true
  · rw [if_pos up, Nat.add_mul]
    omega
  · have := Tie.le_of_not_roundsUp up
    rw [if_neg up]
    omega

end DocQuery
