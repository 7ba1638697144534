import DocQuery.Time.Instant
import Mathlib.Algebra.Ring.Nat

/-!
# Numbers of one width

Texts are compared character by character, so texts made of numbers that are padded to the
same widths are compared as the numbers are, one after the other (`compare_field`). Numbers in
turn are compared by their quotients and then by their remainders (`compare_places`).
-/
namespace DocQuery

theorem eq_of_ordering {first second : Ordering} (less : first = .lt ↔ second = .lt)
    (same : first = .eq ↔ second = .eq) : first = second := by
  cases first <;> cases second <;> simp_all

/-! ## Places of numbers -/

theorem compare_natCast (n m : Nat) : compare (n : Int) (m : Int) = compare n m := by
  apply eq_of_ordering
  · rw [Int.compare_eq_lt, Nat.compare_eq_lt, Int.ofNat_lt]
  · rw [Int.compare_eq_eq, Nat.compare_eq_eq, Int.ofNat_inj]

/-- Digits below a base decide where the numbers above them do not. -/
theorem compare_places {base x y a b : Int} (digitA : 0 ≤ a ∧ a < base) (digitB : 0 ≤ b ∧ b < base) :
    compare (base * x + a) (base * y + b) = (compare x y).then (compare a b) := by
  have above {x y : Int} (less : x < y) : base * x + base ≤ base * y := by
    have next : base * (x + 1) ≤ base * y :=
      Int.mul_le_mul_of_nonneg_left less (Int.le_of_lt (Int.lt_of_le_of_lt digitA.1 digitA.2))
    rwa [Int.mul_add, Int.mul_one] at next
  rcases Int.lt_trichotomy x y with less | rfl | greater
  · have := above less
    rw [Int.compare_eq_lt.mpr less, Int.compare_eq_lt.mpr (by omega)]
    rfl
  · rw [Int.compare_eq_eq.mpr rfl]
    apply eq_of_ordering
    · rw [Int.compare_eq_lt, Ordering.eq_then, Int.compare_eq_lt, Int.add_lt_add_iff_left]
    · rw [Int.compare_eq_eq, Ordering.eq_then, Int.compare_eq_eq, Int.add_right_inj]
  · have := above greater
    rw [Int.compare_eq_gt.mpr greater, Int.compare_eq_gt.mpr (by omega)]
    rfl

/-- Quotients are compared first and remainders after them. -/
theorem compare_div_mod {base : Nat} (positive : 0 < base) (n m : Nat) :
    (compare (n / base) (m / base)).then (compare (n % base) (m % base)) = compare n m := by
  have digit (n : Nat) : 0 ≤ ((n % base : Nat) : Int) ∧ ((n % base : Nat) : Int) < base :=
    ⟨Int.natCast_nonneg _, Int.ofNat_lt.mpr (Nat.mod_lt n positive)⟩
  have whole (n : Nat) : (base : Int) * (n / base : Nat) + (n % base : Nat) = n := by
    rw [← Int.natCast_mul, ← Int.natCast_add, Nat.div_add_mod]
  rw [← compare_natCast (n / base), ← compare_natCast (n % base), ← compare_places (digit n) (digit m),
    whole, whole, compare_natCast]

/-! ## Texts -/

theorem compare_ofList_eq_lt (s t : List Char) :
    compare (String.ofList s) (String.ofList t) = .lt ↔ s < t := by
  have compared : compare (String.ofList s) (String.ofList t) = .lt ↔
      String.ofList s < String.ofList t := compareOfLessAndEq_eq_lt
  rw [compared, String.lt_iff, String.toList_ofList, String.toList_ofList]

theorem compare_ofList_eq_eq (s t : List Char) :
    compare (String.ofList s) (String.ofList t) = .eq ↔ s = t := by
  rw [Std.LawfulEqOrd.compare_eq_iff_eq, String.ofList_inj]

/-- Texts are compared by their first characters, and then by the rest. -/
theorem compare_ofList_cons (c d : Char) (s t : List Char) :
    compare (String.ofList (c :: s)) (String.ofList (d :: t)) =
      (compare c d).then (compare (String.ofList s) (String.ofList t)) := by
  have less : compare c d = .lt ↔ c < d := compareOfLessAndEq_eq_lt
  have same : compare c d = .eq ↔ c = d := Std.LawfulEqOrd.compare_eq_iff_eq
  apply eq_of_ordering
  · rw [Ordering.then_eq_lt, compare_ofList_eq_lt, compare_ofList_eq_lt, less, same,
      List.cons_lt_cons_iff]
  · rw [Ordering.then_eq_eq, compare_ofList_eq_eq, compare_ofList_eq_eq, same, List.cons.injEq]

theorem compare_ofList_same (c : Char) (s t : List Char) :
    compare (String.ofList (c :: s)) (String.ofList (c :: t)) =
      compare (String.ofList s) (String.ofList t) := by
  rw [compare_ofList_cons, Std.ReflOrd.compare_self, Ordering.eq_then]

theorem compare_digitChar {a b : Nat} (digitA : a < 10) (digitB : b < 10) :
    compare a.digitChar b.digitChar = compare a b := by
  have all : ∀ a < 10, ∀ b < 10, compare (Nat.digitChar a) (Nat.digitChar b) = compare a b := by
    decide
  exact all a digitA b digitB

/-- A wider number has one more digit at its end. -/
theorem zeroPadded_add_two (width n : Nat) :
    zeroPadded (width + 2) n = zeroPadded (width + 1) (n / 10) ++ [(n % 10).digitChar] := by
  rcases Nat.lt_or_ge n 10 with digit | more
  · have nothing : n / 10 = 0 := Nat.div_eq_of_lt digit
    simp [zeroPadded, Nat.toDigits_of_lt_base digit, nothing, Nat.mod_eq_of_lt digit,
      List.replicate_succ']
  · have digits := Nat.toDigits_of_base_le (b := 10) (by decide) more
    simp [zeroPadded, digits]

/-- Numbers of one width are compared before what follows them. -/
theorem compare_zeroPadded (width : Nat) {n m : Nat} (fitsN : n < 10 ^ (width + 1))
    (fitsM : m < 10 ^ (width + 1)) (s t : List Char) :
    compare (String.ofList (zeroPadded (width + 1) n ++ s))
        (String.ofList (zeroPadded (width + 1) m ++ t)) =
      (compare n m).then (compare (String.ofList s) (String.ofList t)) := by
  induction width generalizing n m s t with
  | zero =>
    have digitN : n < 10 := fitsN
    have digitM : m < 10 := fitsM
    have padded {n : Nat} (digit : n < 10) : zeroPadded (0 + 1) n = [n.digitChar] := by
      simp [zeroPadded, Nat.toDigits_of_lt_base digit]
    rw [padded digitN, padded digitM, List.singleton_append, List.singleton_append,
      compare_ofList_cons, compare_digitChar digitN digitM]
  | succ width ih =>
    have shorter {n : Nat} (fits : n < 10 ^ (width + 1 + 1)) : n / 10 < 10 ^ (width + 1) :=
      Nat.div_lt_of_lt_mul (by rwa [Nat.pow_succ, Nat.mul_comm] at fits)
    rw [zeroPadded_add_two, zeroPadded_add_two, List.append_assoc, List.append_assoc,
      ih (shorter fitsN) (shorter fitsM), List.singleton_append, List.singleton_append,
      compare_ofList_cons,
      compare_digitChar (Nat.mod_lt n (by decide)) (Nat.mod_lt m (by decide)), ← Ordering.then_assoc,
      compare_div_mod (by decide)]

/-- Numbers of one width, with the same mark behind them, are compared before the rest. -/
theorem compare_field {width n m : Nat} (fitsN : n < 10 ^ (width + 1)) (fitsM : m < 10 ^ (width + 1))
    (mark : Char) (s t : List Char) :
    compare (String.ofList (zeroPadded (width + 1) n ++ mark :: s))
        (String.ofList (zeroPadded (width + 1) m ++ mark :: t)) =
      (compare n m).then (compare (String.ofList s) (String.ofList t)) := by
  rw [compare_zeroPadded width fitsN fitsM, compare_ofList_same]

end DocQuery
