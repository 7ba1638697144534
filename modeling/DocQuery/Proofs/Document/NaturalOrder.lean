import DocQuery.Proofs.Document.Numbers
import DocQuery.Proofs.Document.SortOrder
import DocQuery.Proofs.Numeric.Value
import Mathlib.Data.Prod.Lex
import Mathlib.Data.String.Basic

/-!
# The natural order of sort keys

`Json.standing` says where a key stands among all keys, without a comparison: a class, and
in it a number by its value or a text. So standings are totally ordered. Sort keys are
compared by their standings (`compareForSort_eq_standing`) unless a number is rounded for it
or the texts of two extended values come under different tags.
-/
namespace DocQuery

namespace Number

/-- The value of a number. -/
def value : Number → ℚ
  | .int n => n
  | .float x => x.value

/-- The number is a binary64 number, written as an integer or not. -/
def IsDouble (a : Number) : Prop :=
  a.toDouble.value = a.value

instance (a : Number) : Decidable a.IsDouble :=
  inferInstanceAs (Decidable (_ = _))

theorem compare_cast (x y : Int) : Ord.compare (x : ℚ) (y : ℚ) = Ord.compare x y := by
  rcases lt_trichotomy x y with before | rfl | behind
  · rw [compare_lt_iff_lt.mpr before, compare_lt_iff_lt.mpr (Int.cast_lt.mpr before)]
  · rw [compare_eq_iff_eq.mpr rfl, compare_eq_iff_eq.mpr rfl]
  · rw [compare_gt_iff_gt.mpr behind, compare_gt_iff_gt.mpr (Int.cast_lt.mpr behind)]

/-- Two signed words and two binary64 numbers are compared by their values. -/
theorem compare_eq_value {a b : Number}
    (alike : (a.signed?.isSome ∧ b.signed?.isSome) ∨ (a.IsDouble ∧ b.IsDouble)) :
    a.compare b = Ord.compare a.value b.value := by
  rcases compare_cases a b with ⟨x, y, rfl, rfl, fitsX, fitsY⟩ | wide
  · rw [compare_of_signed fitsX fitsY]
    exact (compare_cast x y).symm
  · rcases alike with ⟨signedA, signedB⟩ | ⟨doubleA, doubleB⟩
    · rcases wide with none | none <;> simp [none] at signedA signedB
    · rw [compare_of_wide wide, key, key, Double.compare_orderKey, doubleA, doubleB]

end Number

namespace Json

/-- The class of a key, from the first to the last: a missing value, null, false, true,
numbers, texts, extended values, arrays, other documents. -/
def keyClass : Option Json → Nat
  | none => 0
  | some .null => 1
  | some (.bool false) => 2
  | some (.bool true) => 3
  | some (.num _) => 4
  | some (.str _) => 5
  | some (.arr _) => 7
  | some (.obj members) => if (Json.obj members).isExtended then 6 else 8

/-- The value of a number; other keys have none. -/
def keyNumber : Option Json → ℚ
  | some (.num a) => a.value
  | _ => 0

/-- The text of a string or an extended value; other keys have none. -/
def keyText : Option Json → String
  | some (.str text) => text
  | some (.obj members) => ((Json.obj members).extended?.map Prod.snd).getD ""
  | _ => ""

/-- Where a key stands in the natural order: its class, and in it its number or its text. -/
def standing (key : Option Json) : ℕ ×ₗ ℚ ×ₗ String :=
  toLex (keyClass key, toLex (keyNumber key, keyText key))

theorem compare_standing (a b : Option Json) :
    compare (standing a) (standing b) =
      (compare (keyClass a) (keyClass b)).then
        ((compare (keyNumber a) (keyNumber b)).then (compare (keyText a) (keyText b))) := by
  simp only [standing, Prod.Lex.compare_def, compareLex, compareOn]
  rfl

/-- Two numbers are signed words or binary64 numbers, and two extended values have one tag. -/
def Commensurable (a b : Option Json) : Prop :=
  (∀ x y, a = some (.num x) → b = some (.num y) →
    (x.signed?.isSome ∧ y.signed?.isSome) ∨ (x.IsDouble ∧ y.IsDouble)) ∧
  ∀ tag x other y, a.bind extended? = some (tag, x) → b.bind extended? = some (other, y) →
    tag = other

theorem keyClass_of_place (key : Option Json) :
    (place key ≤ 2 ∧ keyClass key = place key) ∨ (2 ≤ place key ∧ keyClass key = place key + 1) := by
  cases key with
  | none => exact .inl ⟨Nat.zero_le _, rfl⟩
  | some value =>
    cases value with
    | null => exact .inl ⟨by decide, rfl⟩
    | bool flag =>
      cases flag with
      | false => exact .inl ⟨by decide, rfl⟩
      | true => exact .inr ⟨by decide, rfl⟩
    | num _ | str _ | arr _ => exact .inr ⟨by simp [place, classRank], rfl⟩
    | obj members =>
      cases extended : (Json.obj members).isExtended <;>
        simp [place, classRank, keyClass, extended]

theorem standing_lt_of_place_lt {a b : Option Json} (earlier : place a < place b) :
    standing a < standing b := by
  have first := keyClass_of_place a
  have second := keyClass_of_place b
  have classes : keyClass a < keyClass b := by omega
  exact Prod.Lex.toLex_lt_toLex.mpr (.inl classes)

theorem compareForSort_of_place_lt {a b : Option Json} (earlier : place a < place b) :
    compareForSort a b = .lt := by
  have order := place_le_of_isLE (a := b) (b := a)
  rw [← compareForSort_swap a b] at order
  cases compared : compareForSort a b with
  | lt => rfl
  | eq | gt => exact absurd (order (by simp [compared])) (by omega)

theorem standing_of_extended {value : Json} {tag text : String}
    (extended : value.extended? = some (tag, text)) :
    standing (some value) = toLex (6, toLex (0, text)) := by
  have isExtended : value.isExtended = true := by simp [Json.isExtended, extended]
  obtain ⟨rfl, -⟩ := extended?_eq_some extended
  simp [standing, keyClass, keyNumber, keyText, isExtended, extended]

theorem standing_of_plain {members : Members} (plain : (Json.obj members).extended? = none) :
    standing (some (.obj members)) = toLex (8, toLex (0, "")) := by
  simp [standing, keyClass, keyNumber, keyText, isExtended, plain]

/-- Two extended values or two other documents are compared by their standings. -/
theorem compareLike_obj {a b : Members} (fit : Commensurable (some (.obj a)) (some (.obj b)))
    (same : (Json.obj a).isExtended = (Json.obj b).isExtended) :
    ((Json.obj a).compareLike (.obj b)).getD .eq =
      compare (standing (some (.obj a))) (standing (some (.obj b))) := by
  have compared : (Json.obj a).compareLike (.obj b) = compareExtended (.obj a) (.obj b) := rfl
  rw [compared, compareExtended]
  unfold isExtended at same
  cases first : (Json.obj a).extended? with
  | none =>
    rw [first] at same
    have second : (Json.obj b).extended? = none := by simpa using same.symm
    rw [standing_of_plain first, standing_of_plain second, compare_eq_iff_eq.mpr rfl]
    rfl
  | some found =>
    rw [first] at same
    obtain ⟨⟨other, y⟩, second⟩ := Option.isSome_iff_exists.mp same.symm
    obtain ⟨tag, x⟩ := found
    have tags : tag = other := fit.2 tag x other y first second
    simp only [second, if_pos tags, Option.getD_some]
    rw [standing_of_extended first, standing_of_extended second]
    simp [Prod.Lex.compare_def, compareLex, compareOn]

/-- Keys of one class are compared by their standings. -/
theorem compareForSort_of_place_eq {a b : Option Json} (fit : Commensurable a b)
    (same : place a = place b) : compareForSort a b = compare (standing a) (standing b) := by
  cases a with
  | none =>
    cases b with
    | none => rfl
    | some b => simp [place] at same
  | some a =>
    cases b with
    | none => simp [place] at same
    | some b =>
      have rank : a.classRank = b.classRank := by simpa [place] using same
      simp only [compareForSort, if_pos rank]
      cases a <;> cases b <;> simp [classRank] at rank
      case null.null => rfl
      case bool.bool x y => cases x <;> cases y <;> rfl
      case num.num x y =>
        have values := Number.compare_eq_value (fit.1 x y rfl rfl)
        simp [compare_standing, compareLike, keyClass, keyNumber, keyText, values]
      case str.str x y => simp [compare_standing, compareLike, keyClass, keyNumber, keyText]
      case arr.arr x y => simp [compare_standing, compareLike, extended?, keyClass, keyNumber, keyText]
      case obj.obj x y =>
        apply compareLike_obj fit
        revert rank
        cases (Json.obj x).isExtended <;> cases (Json.obj y).isExtended <;> simp
      all_goals split at rank <;> omega

/-- Commensurable keys are compared by their standings. -/
theorem compareForSort_eq_standing {a b : Option Json} (fit : Commensurable a b) :
    compareForSort a b = compare (standing a) (standing b) := by
  rcases lt_trichotomy (place a) (place b) with earlier | same | later
  · rw [compareForSort_of_place_lt earlier,
      compare_lt_iff_lt.mpr (standing_lt_of_place_lt earlier)]
  · exact compareForSort_of_place_eq fit same
  · rw [← compareForSort_swap b a, compareForSort_of_place_lt later,
      compare_gt_iff_gt.mpr (standing_lt_of_place_lt later)]
    rfl

end Json
end DocQuery
