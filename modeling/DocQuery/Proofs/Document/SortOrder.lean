import DocQuery.Proofs.Document.Numbers

/-!
# The order of sort keys

Any two keys are compared, and in the other order the other way round. The comparison
would be a total preorder but for the values that it takes to be equal without being so:
a number that is no signed word is equal to every signed word that is nearest to it, and
extended values of different tags are equal whatever they say. `sort_order_laws` shows
that nothing else is out of order: three keys of which each is at most the next, but the
first is not at most the last, are `Tangled` around such a value.
-/
namespace DocQuery.Json

/-- Three keys in order two by two, whose middle is taken to be equal to both of its
neighbours, while the first is greater than the last. -/
inductive Tangled : Option Json → Option Json → Option Json → Prop where
  /-- Two integers around a number that rounds like both of them. -/
  | numbers {x z : Int} {y : Number} (fitsX : FitsSigned x) (fitsZ : FitsSigned z) (less : z < x)
      (wide : y.signed? = none) (first : y.toDouble.sameValue (.ofInt x) = true)
      (last : y.toDouble.sameValue (.ofInt z) = true) :
      Tangled (some (.num (.int x))) (some (.num y)) (some (.num (.int z)))
  /-- Two extended values of one tag around one of another tag. -/
  | extended {tag other x y z : String} (tagged : tag ∈ extendedTags)
      (otherTagged : other ∈ extendedTags) (different : tag ≠ other) (less : compare x z = .gt) :
      Tangled (some (.obj [(tag, .str x)])) (some (.obj [(other, .str y)]))
        (some (.obj [(tag, .str z)]))

/-- The other order of two keys is the reverse. -/
theorem compareForSort_swap (a b : Option Json) :
    (compareForSort a b).swap = compareForSort b a := by
  cases a with
  | none => cases b <;> rfl
  | some a =>
    cases b with
    | none => rfl
    | some b =>
      simp only [compareForSort]
      by_cases same : a.classRank = b.classRank
      · rw [if_pos same, if_pos same.symm, ← compareLike_swap a b]
        cases a.compareLike b <;> rfl
      · rw [if_neg same, if_neg (Ne.symm same)]
        exact Std.OrientedOrd.eq_swap.symm

/-- The place of a key's class, a missing key before all others. -/
def place : Option Json → Nat
  | none => 0
  | some value => value.classRank + 1

theorem place_le_of_isLE {a b : Option Json} (le : (compareForSort a b).isLE = true) :
    place a ≤ place b := by
  cases a with
  | none => exact Nat.zero_le _
  | some a =>
    cases b with
    | none => cases le
    | some b =>
      simp only [compareForSort] at le
      split at le
      next same => exact Nat.le_of_eq (congrArg (· + 1) same)
      next => exact Nat.succ_le_succ (Std.isLE_compare.mp le)

theorem isLE_or_isLE_swap (a b : Option Json) :
    (compareForSort a b).isLE = true ∨ (compareForSort b a).isLE = true := by
  rw [← compareForSort_swap a b]
  cases compareForSort a b <;> simp

theorem extended?_eq_some {value : Json} {tag text : String}
    (extended : value.extended? = some (tag, text)) :
    value = .obj [(tag, .str text)] ∧ tag ∈ extendedTags := by
  unfold extended? at extended
  split at extended
  · split at extended
    next tagged =>
      cases extended
      exact ⟨rfl, tagged⟩
    · cases extended
  · cases extended

/-- Numbers out of order are signed words around a number that rounds like both. -/
theorem tangled_of_numbers {a b c : Number} (first : (a.compare b).isLE = true)
    (second : (b.compare c).isLE = true) (third : ¬ (a.compare c).isLE = true) :
    Tangled (some (.num a)) (some (.num b)) (some (.num c)) := by
  have keys : a.key ≤ b.key ∧ b.key ≤ c.key :=
    ⟨Number.key_le_of_isLE first, Number.key_le_of_isLE second⟩
  rcases Number.compare_cases a c with ⟨x, z, rfl, rfl, fitsX, fitsZ⟩ | wide
  · rw [Number.compare_of_signed fitsX fitsZ, Std.isLE_compare] at third
    have back : (Number.int z).key ≤ (Number.int x).key :=
      Double.orderKey_ofInt_mono (by omega)
    cases signed : b.signed? with
    | none =>
      refine .numbers fitsX fitsZ (by omega) signed ?_ ?_
      · exact decide_eq_true (show b.key = (Number.int x).key by omega)
      · exact decide_eq_true (show b.key = (Number.int z).key by omega)
    | some y =>
      obtain ⟨rfl, fitsY⟩ := (Number.signed?_eq_some_iff b y).mp signed
      rw [Number.compare_of_signed fitsX fitsY, Std.isLE_compare] at first
      rw [Number.compare_of_signed fitsY fitsZ, Std.isLE_compare] at second
      omega
  · rw [Number.compare_of_wide wide, Std.isLE_compare] at third
    omega

/-- Extended values out of order are of one tag around one of another tag. -/
theorem tangled_of_extended {a b c : Json} (middle : b.isExtended = true)
    (first : ((compareExtended a b).getD .eq).isLE = true)
    (second : ((compareExtended b c).getD .eq).isLE = true)
    (third : ¬ ((compareExtended a c).getD .eq).isLE = true) :
    Tangled (some a) (some b) (some c) := by
  unfold compareExtended at first second third
  rcases extendedA : a.extended? with _ | ⟨tag, x⟩
  · simp [extendedA] at third
  rcases extendedC : c.extended? with _ | ⟨last, z⟩
  · simp [extendedA, extendedC] at third
  obtain ⟨⟨other, y⟩, extendedB⟩ := Option.isSome_iff_exists.mp middle
  simp only [extendedA, extendedB, extendedC] at first second third
  by_cases same : tag = last
  · subst same
    rw [if_pos rfl] at third
    obtain ⟨rfl, tagged⟩ := extended?_eq_some extendedA
    obtain ⟨rfl, otherTagged⟩ := extended?_eq_some extendedB
    obtain ⟨rfl, -⟩ := extended?_eq_some extendedC
    by_cases equal : tag = other
    · rw [if_pos equal] at first
      rw [if_pos equal.symm] at second
      exact absurd (Std.TransOrd.isLE_trans first second) third
    · refine .extended tagged otherTagged equal ?_
      simpa [Ordering.isLE_iff_ne_gt] using third
  · rw [if_neg same] at third
    exact absurd rfl third

/-- The values of the classes that have an order. -/
theorem shape_of_classRank (value : Json) :
    (value.classRank = 1 → ∃ flag, value = .bool flag) ∧
      (value.classRank = 2 → ∃ number, value = .num number) ∧
      (value.classRank = 3 → ∃ text, value = .str text) ∧
      (value.classRank = 4 → value.isExtended = true) := by
  cases value with
  | obj members =>
    simp only [classRank]
    split
    next extended => simp [extended]
    next => simp
  | _ => simp [classRank]

/-- Values that are compared are two Booleans, numbers or strings, or extended. -/
theorem compareLike_eq_gt {a b : Json} (greater : a.compareLike b = some .gt) :
    (∃ x y, a = .bool x ∧ b = .bool y) ∨ (∃ x y, a = .num x ∧ b = .num y) ∨
      (∃ x y, a = .str x ∧ b = .str y) ∨ compareExtended a b = some .gt := by
  cases a <;> cases b
  case bool.bool x y => exact .inl ⟨x, y, rfl, rfl⟩
  case num.num x y => exact .inr (.inl ⟨x, y, rfl, rfl⟩)
  case str.str x y => exact .inr (.inr (.inl ⟨x, y, rfl, rfl⟩))
  case null.null => cases greater
  all_goals exact .inr (.inr (.inr greater))

theorem classRank_of_isExtended {value : Json} (extended : value.isExtended = true) :
    value.classRank = 4 := by
  obtain ⟨⟨tag, text⟩, found⟩ := Option.isSome_iff_exists.mp extended
  obtain ⟨rfl, -⟩ := extended?_eq_some found
  simp only [classRank, extended, if_true]

theorem compareLike_of_isExtended {a b : Json} (extended : a.isExtended = true) :
    a.compareLike b = compareExtended a b := by
  obtain ⟨⟨tag, text⟩, found⟩ := Option.isSome_iff_exists.mp extended
  obtain ⟨rfl, -⟩ := extended?_eq_some found
  cases b <;> rfl

/-- Values of one class out of order are tangled. -/
theorem tangled_of_values {a b c : Json} (before : a.classRank = b.classRank)
    (first : ((a.compareLike b).getD .eq).isLE = true)
    (second : ((b.compareLike c).getD .eq).isLE = true)
    (third : ¬ ((a.compareLike c).getD .eq).isLE = true) :
    Tangled (some a) (some b) (some c) := by
  have greater : a.compareLike c = some .gt := by
    rcases order : a.compareLike c with _ | _ | _ | _ <;> simp [order] at third
    rfl
  obtain ⟨bools, numbers, texts, extendeds⟩ := shape_of_classRank b
  rcases compareLike_eq_gt greater with
    ⟨x, z, rfl, rfl⟩ | ⟨x, z, rfl, rfl⟩ | ⟨x, z, rfl, rfl⟩ | compared
  · obtain ⟨y, rfl⟩ := bools before.symm
    exact absurd (Std.TransOrd.isLE_trans first second) third
  · obtain ⟨y, rfl⟩ := numbers before.symm
    exact tangled_of_numbers first second third
  · obtain ⟨y, rfl⟩ := texts before.symm
    exact absurd (Std.TransOrd.isLE_trans first second) third
  · have outer : a.isExtended = true := by
      unfold compareExtended at compared
      split at compared
      next found _ => simp [isExtended, found]
      next => cases compared
    have middle : b.isExtended = true :=
      extendeds (before.symm.trans (classRank_of_isExtended outer))
    rw [compareLike_of_isExtended outer] at first third
    rw [compareLike_of_isExtended middle] at second
    exact tangled_of_extended middle first second third

/-- Keys out of order are tangled. -/
theorem tangled_of_keys {a b c : Option Json} (first : (compareForSort a b).isLE = true)
    (second : (compareForSort b c).isLE = true) (third : ¬ (compareForSort a c).isLE = true) :
    Tangled a b c := by
  have ab := place_le_of_isLE first
  have bc := place_le_of_isLE second
  have ca := place_le_of_isLE ((isLE_or_isLE_swap a c).resolve_left third)
  cases a with
  | none => cases c <;> exact absurd rfl third
  | some a =>
    cases b with
    | none => cases first
    | some b =>
      cases c with
      | none => cases second
      | some c =>
        simp only [place] at ab bc ca
        have before : a.classRank = b.classRank := by omega
        have behind : b.classRank = c.classRank := by omega
        simp only [compareForSort, before, behind, if_true] at first second third
        exact tangled_of_values before first second third

/-- Tangled keys are out of order. -/
theorem Tangled.orders {a b c : Option Json} (tangled : Tangled a b c) :
    compareForSort a b = .eq ∧ compareForSort b c = .eq ∧ compareForSort a c = .gt := by
  cases tangled with
  | @numbers x z y fitsX fitsZ less wide first last =>
    simp only [compareForSort, classRank, if_true, compareLike, Option.getD_some,
      Number.compare_of_wide (.inr wide), Number.compare_of_wide (.inl wide),
      Number.compare_of_signed fitsX fitsZ, Int.compare_eq_eq, Int.compare_eq_gt]
    exact ⟨(of_decide_eq_true first).symm, of_decide_eq_true last, less⟩
  | @extended tag other x y z tagged otherTagged different greater =>
    have rank {name : String} (listed : name ∈ extendedTags) (text : String) :
        (Json.obj [(name, .str text)]).classRank = 4 :=
      classRank_of_isExtended (by simp [isExtended, extended?, listed])
    simp only [compareForSort, rank tagged, rank otherTagged, if_true, compareLike, extended?,
      tagged, otherTagged, if_neg different, if_neg (Ne.symm different), greater]
    exact ⟨rfl, rfl, rfl⟩

theorem eq_of_isLE_eq {first second : Ordering} (same : first.isLE = second.isLE)
    (swapped : first.swap.isLE = second.swap.isLE) : first = second := by
  revert same swapped
  cases first <;> cases second <;> decide

/-- Keys that are equal have the same order to a third one if no three are tangled. -/
theorem compareForSort_congr {a b c : Option Json}
    (untangled : ∀ x ∈ [a, b, c], ∀ y ∈ [a, b, c], ∀ z ∈ [a, b, c], ¬ Tangled x y z)
    (equal : compareForSort a b = .eq) : compareForSort a c = compareForSort b c := by
  have trans {x y z : Option Json} (hx : x ∈ [a, b, c]) (hy : y ∈ [a, b, c]) (hz : z ∈ [a, b, c])
      (first : (compareForSort x y).isLE = true) (second : (compareForSort y z).isLE = true) :
      (compareForSort x z).isLE = true := by
    rcases Bool.eq_false_or_eq_true (compareForSort x z).isLE with le | greater
    · exact le
    · exact absurd (tangled_of_keys first second (by simp [greater])) (untangled x hx y hy z hz)
  have forth : (compareForSort a b).isLE = true := by rw [equal]; rfl
  have back : (compareForSort b a).isLE = true := by rw [← compareForSort_swap, equal]; rfl
  have inA : a ∈ [a, b, c] := by simp
  have inB : b ∈ [a, b, c] := by simp
  have inC : c ∈ [a, b, c] := by simp
  apply eq_of_isLE_eq
  · rw [Bool.eq_iff_iff]
    exact ⟨fun le => trans inB inA inC back le, fun le => trans inA inB inC forth le⟩
  · rw [compareForSort_swap, compareForSort_swap, Bool.eq_iff_iff]
    exact ⟨fun le => trans inC inA inB le forth, fun le => trans inC inB inA le back⟩

/-- Sort keys are compared as in a total preorder, except for tangled ones: reversing two
keys reverses their order, three keys are out of order exactly if they are tangled, and
where no three are tangled equal keys are interchangeable. -/
theorem sort_order_laws (a b c : Option Json) :
    compareForSort b a = (compareForSort a b).swap ∧
      (compareForSort a b ≠ .gt ∧ compareForSort b c ≠ .gt ∧ compareForSort a c = .gt ↔
        Tangled a b c) ∧
      ((∀ x ∈ [a, b, c], ∀ y ∈ [a, b, c], ∀ z ∈ [a, b, c], ¬ Tangled x y z) →
        compareForSort a b = .eq → compareForSort a c = compareForSort b c) := by
  refine ⟨(compareForSort_swap a b).symm, ⟨?_, ?_⟩, compareForSort_congr⟩
  · rintro ⟨first, second, third⟩
    exact tangled_of_keys (Ordering.isLE_iff_ne_gt.mpr first) (Ordering.isLE_iff_ne_gt.mpr second)
      (by rw [third]; decide)
  · intro tangled
    obtain ⟨first, second, third⟩ := tangled.orders
    exact ⟨by rw [first]; decide, by rw [second]; decide, third⟩

/-- `2 ^ 53 + 1` and `2 ^ 53` have the floating point number `2 ^ 53` between them, and two
dates have any identifier. -/
theorem sort_order_not_transitive :
    (¬ ∀ a b c : Number, compareForSort (some (.num a)) (some (.num b)) ≠ .gt →
      compareForSort (some (.num b)) (some (.num c)) ≠ .gt →
        compareForSort (some (.num a)) (some (.num c)) ≠ .gt) ∧
    ¬ ∀ a b c : Json, a.isExtended = true → b.isExtended = true → c.isExtended = true →
      compareForSort (some a) (some b) ≠ .gt → compareForSort (some b) (some c) ≠ .gt →
        compareForSort (some a) (some c) ≠ .gt := by
  constructor
  · intro transitive
    exact transitive (.int 9007199254740993) (.float ⟨0x4340000000000000⟩) (.int 9007199254740992)
      (by decide +kernel) (by decide +kernel) (by decide +kernel)
  · intro transitive
    exact transitive (.obj [("$date", .str "b")]) (.obj [("$uuid", .str "x")])
      (.obj [("$date", .str "a")]) rfl rfl rfl (by decide +kernel) (by decide +kernel)
      (by decide +kernel)

end DocQuery.Json
