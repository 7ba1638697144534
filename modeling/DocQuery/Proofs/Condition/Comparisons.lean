import DocQuery.Proofs.Condition.Meaning
import DocQuery.Proofs.Document.SortOrder

/-!
# Coherence of comparisons

The operators of a condition decide equality and order separately: equality looks into arrays
and counts a missing field as null, order does neither. `comparisons_cohere` shows what holds
between their answers all the same. Where the value found and the operand have an order, the
six operators say what exactly one of `$lt`, `$eq` and `$gt` says; elsewhere no order holds.
-/
namespace DocQuery

namespace Json

/-- Two values of one class that has an order. -/
inductive Comparable : Json → Json → Prop where
  | null : Comparable .null .null
  | bool (a b : Bool) : Comparable (.bool a) (.bool b)
  | num (a b : Number) : Comparable (.num a) (.num b)
  | str (a b : String) : Comparable (.str a) (.str b)
  | extended {tag : String} (tagged : tag ∈ extendedTags) (a b : String) :
      Comparable (.obj [(tag, .str a)]) (.obj [(tag, .str b)])

theorem compareExtended_eq_some {a b : Json} {order : Ordering}
    (compared : compareExtended a b = some order) :
    ∃ tag x y, tag ∈ extendedTags ∧ a = .obj [(tag, .str x)] ∧ b = .obj [(tag, .str y)] ∧
      compare x y = order := by
  unfold compareExtended at compared
  split at compared
  next tag x otherTag y extendedA extendedB =>
    obtain ⟨rfl, tagged⟩ := extended?_eq_some extendedA
    obtain ⟨rfl, -⟩ := extended?_eq_some extendedB
    split at compared
    next same =>
      subst same
      exact ⟨tag, x, y, tagged, rfl, rfl, Option.some.inj compared⟩
    next => cases compared
  next => cases compared

/-- The values that have an order, and with it their equality. -/
theorem compareLike_eq_some {a b : Json} {order : Ordering}
    (compared : a.compareLike b = some order) :
    a.Comparable b ∧ (a.sameValue b = true ↔ order = .eq) := by
  have texts {x y : String} (decided : compare x y = order) : x = y ↔ order = .eq := by
    rw [← decided, Std.LawfulEqOrd.compare_eq_iff_eq]
  have extended (different : compareExtended a b = some order) :
      a.Comparable b ∧ (a.sameValue b = true ↔ order = .eq) := by
    obtain ⟨tag, x, y, tagged, rfl, rfl, decided⟩ := compareExtended_eq_some different
    refine ⟨.extended tagged x y, ?_⟩
    rw [← texts decided]
    simp [sameValue, equal, equalMembers, Assoc.get?]
  cases a <;> cases b
  case null.null =>
    cases compared
    exact ⟨.null, by decide⟩
  case bool.bool a b =>
    cases compared
    exact ⟨.bool a b, by cases a <;> cases b <;> decide⟩
  case num.num a b =>
    cases compared
    exact ⟨.num a b, by simp [sameValue]⟩
  case str.str a b =>
    refine ⟨.str a b, ?_⟩
    rw [← texts (Option.some.inj compared)]
    simp [sameValue, equal]
  all_goals exact extended compared

theorem Comparable.order {a b : Json} (comparable : a.Comparable b) :
    ∃ order, a.compareLike b = some order := by
  cases comparable with
  | null | bool | num | str => exact ⟨_, rfl⟩
  | extended tagged x y => exact ⟨compare x y, by simp [compareLike, extended?, tagged]⟩

theorem comparable_iff (a b : Json) : a.Comparable b ↔ (a.compareLike b).isSome = true := by
  rw [Option.isSome_iff_exists]
  exact ⟨Comparable.order, fun ⟨_, compared⟩ => (compareLike_eq_some compared).1⟩

end Json

namespace Match

/-- What a comparison with an operand says of the value found. -/
def answer (found : Option Json) (op : CompareOp) (operand : Json) : Bool :=
  match op with
  | .eq => equals found operand
  | .ne => !equals found operand
  | .lt => compares found operand (· == .lt)
  | .lte => compares found operand (· != .gt)
  | .gt => compares found operand (· == .gt)
  | .gte => compares found operand (· != .lt)

theorem fieldHolds_compare (found : Option Json) (op : CompareOp) (operand : Json) :
    fieldHolds found (.obj [(op.operator, operand)]) = .ok (answer found op operand) := by
  rw [fieldHolds_operator found operand op.marked_operator op.operator_not_tag]
  cases op <;> rfl

theorem fieldHolds_in (found : Option Json) (candidates : List Json) :
    fieldHolds found (.obj [("$in", .arr candidates)]) =
      .ok (candidates.any (answer found .eq)) := by
  rw [fieldHolds_operator found _ (by decide) (by decide)]
  rfl

/-- Where there is an order, every comparison is decided by it. -/
theorem answer_of_compareLike {value operand : Json} {order : Ordering}
    (compared : value.compareLike operand = some order) :
    equals (some value) operand = (order == .eq) ∧
      ∀ accept, compares (some value) operand accept = accept order := by
  obtain ⟨comparable, same⟩ := Json.compareLike_eq_some compared
  constructor
  · -- A value that has an order is no array.
    have single : equals (some value) operand = value.sameValue operand := by
      cases comparable <;> simp [equals]
    rw [single, Bool.eq_iff_iff, same, beq_iff_eq]
  · intro accept
    simp only [compares, Option.bind_some, compared]

/-- Where there is an order, every operator is answered by it. -/
theorem operatorHolds_of_compareLike {value operand : Json} {order : Ordering}
    (compared : value.compareLike operand = some order) (op : CompareOp) :
    operatorHolds (some value) op.operator operand = .ok (op.accepts order) := by
  obtain ⟨equality, ordering⟩ := answer_of_compareLike compared
  cases op <;> cases order <;>
    simp [operatorHolds, CompareOp.operator, CompareOp.accepts, equality, ordering]

/-- Where there is no order, no ordering comparison holds. -/
theorem compares_of_incomparable {found : Option Json} {operand : Json}
    (incomparable : ¬ ∃ value, found = some value ∧ value.Comparable operand)
    (accept : Ordering → Bool) : compares found operand accept = false := by
  cases found with
  | none => rfl
  | some value =>
    cases compared : value.compareLike operand with
    | none => simp only [compares, Option.bind_some, compared]
    | some order =>
      exact absurd ⟨value, rfl, (Json.compareLike_eq_some compared).1⟩ incomparable

/-- The comparisons of a field are coherent. Each has an answer, on every document: `$ne` says
the opposite of `$eq`, and `$in` says `$eq` of some candidate. If the value found and the operand
have an order, exactly one of `$lt`, `$eq` and `$gt` holds, and `$lte` and `$gte` are each the
disjunction of two of them; if not, none of `$lt`, `$lte`, `$gt` and `$gte` holds. -/
theorem comparisons_cohere (document : Json) (path : String) :
    (Sigil.isMarked path = false → ∀ condition,
      holds document [(path, condition)] = fieldHolds (document.lookup path) condition) ∧
    ∃ answers : CompareOp → Json → Bool,
      (∀ op operand, fieldHolds (document.lookup path) (.obj [(op.operator, operand)]) =
        .ok (answers op operand)) ∧
      (∀ candidates, fieldHolds (document.lookup path) (.obj [("$in", .arr candidates)]) =
        .ok (candidates.any (answers .eq))) ∧
      ∀ operand,
        answers .ne operand = !answers .eq operand ∧
        (∀ value : Json, value.Comparable operand ↔ (value.compareLike operand).isSome = true) ∧
        ((∃ value, document.lookup path = some value ∧ value.Comparable operand) →
          [CompareOp.lt, .eq, .gt].countP (answers · operand) = 1 ∧
          answers .lte operand = (answers .lt operand || answers .eq operand) ∧
          answers .gte operand = (answers .gt operand || answers .eq operand)) ∧
        ((¬ ∃ value, document.lookup path = some value ∧ value.Comparable operand) →
          ∀ op ∈ [CompareOp.lt, .lte, .gt, .gte], answers op operand = false) := by
  constructor
  · intro plain condition
    rw [holds_singleton, entryHolds_field document condition plain]
  refine ⟨answer (document.lookup path), fieldHolds_compare _, fieldHolds_in _, ?_⟩
  intro operand
  refine ⟨rfl, fun value => Json.comparable_iff value operand, ?_, ?_⟩
  · rintro ⟨value, found, comparable⟩
    obtain ⟨order, compared⟩ := comparable.order
    obtain ⟨equality, ordering⟩ := answer_of_compareLike compared
    rw [found]
    simp only [List.countP_cons, List.countP_nil, answer, equality, ordering]
    cases order <;> decide
  · intro incomparable op listed
    simp only [List.mem_cons, List.not_mem_nil, or_false] at listed
    rcases listed with rfl | rfl | rfl | rfl <;> exact compares_of_incomparable incomparable _

/-- The age of a person has an order to a bound; the cities, an array, have none to a name. -/
theorem comparisons_cohere_commuter :
    (∃ answers : CompareOp → Bool,
      (∀ op : CompareOp,
        holds commuter [("Age", .obj [(op.operator, .num (.int 18))])] = .ok (answers op)) ∧
      [CompareOp.lt, .eq, .gt].countP answers = 1) ∧
    ∀ op ∈ [CompareOp.lt, .lte, .gt, .gte],
      holds commuter [("Address.place.city", .obj [(op.operator, .str "Ulm")])] = .ok false := by
  have age : commuter.lookup "Age" = some (.num (.int 30)) := rfl
  have cities : commuter.lookup "Address.place.city" = some (.arr [.str "Bonn", .str "Ulm"]) := rfl
  constructor
  · obtain ⟨plain, answers, decided, -, coherent⟩ := comparisons_cohere commuter "Age"
    obtain ⟨-, -, ordered, -⟩ := coherent (.num (.int 18))
    obtain ⟨one, -⟩ := ordered ⟨_, age, .num (.int 30) (.int 18)⟩
    exact ⟨(answers · (.num (.int 18))), fun op => (plain (by decide) _).trans (decided op _), one⟩
  · obtain ⟨plain, answers, decided, -, coherent⟩ := comparisons_cohere commuter "Address.place.city"
    obtain ⟨-, -, -, unordered⟩ := coherent (.str "Ulm")
    intro op listed
    rw [plain (by decide), decided, unordered _ op listed]
    rintro ⟨value, found, comparable⟩
    rw [cities] at found
    cases found
    cases comparable

end Match
end DocQuery
