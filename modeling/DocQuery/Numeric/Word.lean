/-!
# Powers and words

Powers of two and ten, and the integers that fit a 64-bit word with or without
sign.
-/
namespace DocQuery

def twoTo (exponent : Nat) : Nat := Nat.pow 2 exponent

def tenTo (exponent : Nat) : Nat := Nat.pow 10 exponent

def FitsSigned (n : Int) : Prop := -9223372036854775808 ≤ n ∧ n < 9223372036854775808

/-- The integer fits a 64-bit word, signed or unsigned. -/
def FitsWord (n : Int) : Prop := -9223372036854775808 ≤ n ∧ n < 18446744073709551616

instance (n : Int) : Decidable (FitsSigned n) := inferInstanceAs (Decidable (_ ∧ _))

instance (n : Int) : Decidable (FitsWord n) := inferInstanceAs (Decidable (_ ∧ _))

end DocQuery
