import DocQuery.Collection.Match
import DocQuery.Expr.Basic
import DocQuery.Proofs.Document.Comparison
import DocQuery.Proofs.Numeric.Rounding

/-!
# Numbers by value

Two numbers are compared as integers if both fit a signed word, and otherwise by the
binary64 numbers nearest to them (`compare_cases`). The first comparison refines the
second (`key_le_of_isLE`), since rounding keeps the order of integers. `integers_compare`
says what this means for two integers of 64 bits: conditions and sorts see their
mathematical order, unless the integers are blurred, which are taken to be equal.
-/
namespace DocQuery

/-- The answer of a comparison to operands of a known order. -/
def CompareOp.accepts (op : CompareOp) (order : Ordering) : Bool :=
  match op with
  | .eq => order.isEq
  | .ne => order.isNe
  | .lt => order.isLT
  | .lte => order.isLE
  | .gt => order.isGT
  | .gte => order.isGE

namespace Number

/-- The place in the order of the binary64 number nearest to a number. -/
def key (a : Number) : Int := a.toDouble.orderKey

theorem signed?_eq_some_iff (a : Number) (value : Int) :
    a.signed? = some value ↔ a = .int value ∧ FitsSigned value := by
  cases a with
  | float x => simp [signed?]
  | int x =>
    simp only [signed?, int.injEq, Option.ite_none_right_eq_some, Option.some.injEq]
    constructor
    · rintro ⟨fits, rfl⟩
      exact ⟨rfl, fits⟩
    · rintro ⟨rfl, fits⟩
      exact ⟨fits, rfl⟩

theorem compare_of_signed {x y : Int} (fitsX : FitsSigned x) (fitsY : FitsSigned y) :
    (Number.int x).compare (.int y) = Ord.compare x y := by
  simp only [Number.compare, signed?, if_pos fitsX, if_pos fitsY]

theorem compare_of_wide {a b : Number} (wide : a.signed? = none ∨ b.signed? = none) :
    a.compare b = Ord.compare a.key b.key := by
  unfold Number.compare
  split
  next x y first second => simp [first, second] at wide
  · rfl

/-- Two numbers are compared as integers or by their keys. -/
theorem compare_cases (a b : Number) :
    (∃ x y, a = .int x ∧ b = .int y ∧ FitsSigned x ∧ FitsSigned y) ∨
      (a.signed? = none ∨ b.signed? = none) := by
  cases first : a.signed? with
  | none => exact .inr (.inl rfl)
  | some x =>
    cases second : b.signed? with
    | none => exact .inr (.inr rfl)
    | some y =>
      obtain ⟨rfl, fitsX⟩ := (signed?_eq_some_iff a x).mp first
      obtain ⟨rfl, fitsY⟩ := (signed?_eq_some_iff b y).mp second
      exact .inl ⟨x, y, rfl, rfl, fitsX, fitsY⟩

/-- Comparison keeps the order of the nearest binary64 numbers. -/
theorem key_le_of_isLE {a b : Number} (le : (a.compare b).isLE = true) : a.key ≤ b.key := by
  rcases compare_cases a b with ⟨x, y, rfl, rfl, fitsX, fitsY⟩ | wide
  · rw [compare_of_signed fitsX fitsY, Std.isLE_compare] at le
    exact Double.orderKey_ofInt_mono le
  · rwa [compare_of_wide wide, Std.isLE_compare] at le

/-- Two different integers that are taken to be equal: they do not both fit a signed word
and are nearest to the same binary64 number. -/
def Blurred (a b : Int) : Prop :=
  a ≠ b ∧ ¬ (FitsSigned a ∧ FitsSigned b) ∧ Double.ofInt a = Double.ofInt b

instance (a b : Int) : Decidable (Blurred a b) :=
  inferInstanceAs (Decidable (_ ∧ _ ∧ _))

/-- Integers that are not blurred are compared exactly. -/
theorem compare_int (a b : Int) :
    (Number.int a).compare (.int b) = if Blurred a b then .eq else Ord.compare a b := by
  by_cases signed : FitsSigned a ∧ FitsSigned b
  · have exact : ¬ Blurred a b := fun blurred => blurred.2.1 signed
    rw [if_neg exact, compare_of_signed signed.1 signed.2]
  · have wide : (Number.int a).signed? = none ∨ (Number.int b).signed? = none := by
      by_cases fits : FitsSigned a
      · simp [signed?, show ¬ FitsSigned b from fun other => signed ⟨fits, other⟩]
      · simp [signed?, fits]
    rw [compare_of_wide wide]
    change Ord.compare (Double.ofInt a).orderKey (Double.ofInt b).orderKey = _
    by_cases same : (Double.ofInt a).orderKey = (Double.ofInt b).orderKey
    · rw [Int.compare_eq_eq.mpr same]
      by_cases equal : a = b
      · have exact : ¬ Blurred a b := fun blurred => blurred.1 equal
        rw [if_neg exact, Int.compare_eq_eq.mpr equal]
      · rw [if_pos ⟨equal, signed, (Double.ofInt_eq_iff a b).mpr same⟩]
    · have exact : ¬ Blurred a b := fun blurred =>
        same ((Double.ofInt_eq_iff a b).mp blurred.2.2)
      rw [if_neg exact]
      rcases Int.lt_or_le a b with less | le
      · have keys := Double.orderKey_ofInt_mono (Int.le_of_lt less)
        rw [Int.compare_eq_lt.mpr less, Int.compare_eq_lt.mpr (by omega)]
      · have keys := Double.orderKey_ofInt_mono le
        have less : b < a := by
          rcases Int.lt_or_eq_of_le le with less | rfl
          · exact less
          · exact absurd rfl same
        rw [Int.compare_eq_gt.mpr less, Int.compare_eq_gt.mpr (by omega)]

end Number

namespace Match

/-- A comparison of two numbers is answered by their order. -/
theorem operatorHolds_num (a b : Number) (op : CompareOp) :
    operatorHolds (some (.num a)) op.operator (.num b) = .ok (op.accepts (a.compare b)) := by
  cases op <;> cases order : a.compare b <;>
    simp [operatorHolds, CompareOp.operator, CompareOp.accepts, equals, compares,
      Json.compareLike, Json.sameValue, order]

theorem equals_int (a b : Int) :
    equals (some (.num (.int a))) (.num (.int b)) = decide (a = b ∨ Number.Blurred a b) := by
  have same : equals (some (.num (.int a))) (.num (.int b)) =
      ((Number.int a).compare (.int b) == .eq) := Bool.or_false _
  rw [same, Number.compare_int]
  by_cases blurred : Number.Blurred a b
  · simp [blurred]
  · by_cases equal : a = b
    · simp [equal]
    · simp [blurred, equal]

end Match

/-- Integers of 64 bits are compared exactly by conditions and by sorts, unless they are
blurred: then they are taken to be equal. Blurred integers are at most 2048 apart, and not
both of them fit a signed word. -/
theorem integers_compare (a b : Int) (wordA : FitsWord a) (wordB : FitsWord b) :
    let order := if Number.Blurred a b then .eq else compare a b
    (Json.num (.int a)).compareLike (.num (.int b)) = some order ∧
      Json.compareForSort (some (.num (.int a))) (some (.num (.int b))) = order ∧
      (∀ op : CompareOp,
        Match.operatorHolds (some (.num (.int a))) op.operator (.num (.int b)) =
          .ok (op.accepts order)) ∧
      (∀ items : List Int,
        Match.operatorHolds (some (.num (.int a))) "$in" (.arr (items.map fun n => .num (.int n))) =
          .ok (items.any fun n => a = n ∨ Number.Blurred a n)) ∧
      (Number.Blurred a b → ¬ (FitsSigned a ∧ FitsSigned b) ∧ (a - b).natAbs ≤ 2048) := by
  intro order
  have compared : (Number.int a).compare (.int b) = order := Number.compare_int a b
  refine ⟨?_, ?_, ?_, ?_, ?_⟩
  · rw [Json.compareLike, compared]
  · simp only [Json.compareForSort, Json.classRank, if_true, Json.compareLike, compared,
      Option.getD_some]
  · intro op
    rw [Match.operatorHolds_num, compared]
  · intro items
    change Except.ok ((items.map _).any (Match.equals (some (.num (.int a))))) = _
    rw [List.any_map]
    exact congrArg Except.ok (List.any_congr rfl fun n => Match.equals_int a n)
  · intro blurred
    exact ⟨blurred.2.1, Double.natAbs_sub_le_of_ofInt_eq wordA wordB blurred.2.2⟩

/-- The greatest unsigned word and the greatest signed one are told apart. -/
theorem integers_compare_extremes :
    FitsWord 18446744073709551615 ∧ FitsWord 9223372036854775807 ∧
      Match.operatorHolds (some (.num (.int 18446744073709551615))) "$gt"
        (.num (.int 9223372036854775807)) = .ok true := by
  have fits : FitsWord 18446744073709551615 ∧ FitsWord 9223372036854775807 := by decide
  have answers := (integers_compare 18446744073709551615 9223372036854775807 fits.1 fits.2).2.2.1 .gt
  have exact : ¬ Number.Blurred 18446744073709551615 9223372036854775807 := by decide +kernel
  rw [if_neg exact] at answers
  exact ⟨fits.1, fits.2, answers⟩

/-- Beyond the signed words neighbours are blurred. -/
theorem integers_compare_blurred :
    ¬ ∀ a b : Int, FitsWord a → FitsWord b →
      (Json.num (.int a)).compareLike (.num (.int b)) = some (compare a b) := by
  intro always
  have equal : (Json.num (.int 9223372036854775808)).compareLike
      (.num (.int 9223372036854775809)) = some .eq := by decide +kernel
  cases equal.symm.trans (always 9223372036854775808 9223372036854775809 (by decide) (by decide))

end DocQuery
