import DocQuery.Proofs.Document.Numbers
import DocQuery.Proofs.Scope.Plain

/-!
# Conditions in both contexts

A condition on members and constants is lowered for `$match` and as a computed value for
`$project`. The two are evaluated by different rules: conditions look for values of the
constant's class and take numbers by value, while computed values are ordered across
classes, and equality of them is equality of representation. `condition_contexts` shows that
both contexts give one answer where every member has a value of its constant's class, as
long as no equality meets two numbers of one value in different representations; at such
a pair an equality gets opposite answers.
-/
namespace DocQuery

namespace Number

theorem compare_eq_of_equal {a b : Number} (equal : a.equal b = true) : a.compare b = .eq := by
  cases a <;> cases b
  case int.int x y =>
    obtain rfl : x = y := of_decide_eq_true equal
    rw [compare_int, if_neg fun blurred => blurred.1 rfl, Int.compare_eq_eq]
  case float.float x y =>
    rw [compare_of_wide (.inl rfl), Int.compare_eq_eq]
    exact of_decide_eq_true equal
  all_goals cases equal

theorem equal_comm (a b : Number) : a.equal b = b.equal a := by
  cases a <;> cases b <;> simp [equal, Double.sameValue, eq_comm]

end Number

namespace Json

/-- Two values of one class, of those that have an order. -/
inductive SameClass : Json → Json → Prop where
  | null : SameClass .null .null
  | bool (x y : Bool) : SameClass (.bool x) (.bool y)
  | num (x y : Number) : SameClass (.num x) (.num y)
  | str (x y : String) : SameClass (.str x) (.str y)
  | extended {tag : String} (tagged : tag ∈ extendedTags) (x y : String) :
      SameClass (.obj [(tag, .str x)]) (.obj [(tag, .str y)])

namespace SameClass

variable {a b : Json}

theorem symm (same : SameClass a b) : SameClass b a := by
  cases same with
  | null => exact .null
  | bool x y => exact .bool y x
  | num x y => exact .num y x
  | str x y => exact .str y x
  | extended tagged x y => exact .extended tagged y x

theorem equal_comm (same : SameClass a b) : a.equal b = b.equal a := by
  cases same with
  | null => rfl
  | bool x y => simp only [equal, Bool.beq_comm]
  | num x y => exact Number.equal_comm x y
  | str x y => simp only [equal, BEq.comm]
  | extended tagged x y => simp [equal, equalMembers, Assoc.get?, BEq.comm]

/-- Values of one class have one order in both contexts, and they are the same for
conditions exactly if the order says so. -/
theorem order (same : SameClass a b) :
    ∃ order, a.compareLike b = some order ∧ compareForSort (some a) (some b) = order ∧
      (a.SameAs b ↔ order = .eq) ∧ (a.equal b = true → order = .eq) := by
  cases same with
  | null => exact ⟨.eq, rfl, rfl, by simp [SameAs, equal], fun _ => rfl⟩
  | bool x y =>
    refine ⟨compare x y, rfl, rfl, ?_, ?_⟩ <;> simp [SameAs, equal]
  | num x y =>
    refine ⟨x.compare y, rfl, rfl, ?_, Number.compare_eq_of_equal⟩
    simp [SameAs, compareLike]
  | str x y =>
    refine ⟨compare x y, rfl, rfl, ?_, ?_⟩ <;> simp [SameAs, equal]
  | @extended tag tagged x y =>
    refine ⟨compare x y, ?_, ?_, ?_, ?_⟩
    · simp [compareLike, extended?, tagged]
    · simp [compareForSort, classRank, isExtended, compareLike, extended?, tagged]
    · simp [SameAs, equal, equalMembers, Assoc.get?]
    · simp [equal, equalMembers, Assoc.get?]

theorem sameAs_comm (same : SameClass a b) : a.SameAs b ↔ b.SameAs a := by
  obtain ⟨order, compared, -, forth, -⟩ := same.order
  obtain ⟨reversed, back, -, other, -⟩ := same.symm.order
  rw [← compareLike_swap a b, compared, Option.map_some, Option.some.injEq] at back
  rw [forth, other, ← back]
  cases order <;> decide

/-- A member that finds a value of a constant's class equals it if the values are the same. -/
theorem equalTo_iff (same : SameClass a b) : EqualTo (some a) b ↔ a.SameAs b := by
  cases same <;> simp [EqualTo]

end SameClass
end Json

/-- An equality of two numbers that are ordered as one and have different representations. -/
def CompareOp.Clashes (op : CompareOp) (a b : Json) : Prop :=
  (op = .eq ∨ op = .ne) ∧
    ∃ x y, a = .num x ∧ b = .num y ∧ x.compare y = .eq ∧ x.equal y = false

namespace Json.SameClass

variable {a b : Json}

/-- Among values of one class only numbers are ordered as one without being equal. -/
theorem clashes_iff (same : SameClass a b) (op : CompareOp) :
    op.Clashes a b ↔ (op = .eq ∨ op = .ne) ∧ a.compareLike b = some .eq ∧ a.equal b = false := by
  unfold CompareOp.Clashes
  cases same with
  | num x y => simp [compareLike, equal]
  | extended tagged x y =>
    simp +contextual [compareLike, extended?, tagged, equal, equalMembers, Assoc.get?]
  | _ => simp +contextual [compareLike, equal]

theorem clashes_comm (same : SameClass a b) (op : CompareOp) :
    op.Clashes a b ↔ op.Clashes b a := by
  rw [same.clashes_iff, same.symm.clashes_iff, same.equal_comm, ← compareLike_swap a b]
  cases a.compareLike b with
  | none => simp
  | some order => cases order <;> simp

/-- Values of one class answer a comparison in both contexts alike, unless they clash. -/
theorem onValues_iff (same : SameClass a b) (op : CompareOp) {equal : Prop}
    (means : equal ↔ a.SameAs b) :
    (¬ op.Clashes a b →
      (op.onValues (some a) (some b) = true ↔ op.Relates equal (some a) (some b))) ∧
    (op.Clashes a b →
      (op.onValues (some a) (some b) = true ↔ ¬ op.Relates equal (some a) (some b))) := by
  obtain ⟨order, compared, sorted, ordered, represented⟩ := same.order
  rw [ordered] at means
  rw [same.clashes_iff, compared]
  have structural : Project.sameArgument (some a) (some b) = a.equal b := rfl
  cases op with
  | eq | ne =>
    simp only [CompareOp.onValues, CompareOp.Relates, sorted, structural, means]
    cases value : a.equal b with
    | true => simp [represented value]
    | false => cases order <;> simp
  | lt | lte | gt | gte =>
    simp only [CompareOp.onValues, CompareOp.Relates, sorted]
    cases order <;> simp [Ordered, compared]

end Json.SameClass

namespace Expr

/-- The comparisons of a condition: the operator, the member and the constant, whichever
of the two is on the left. -/
def comparisons : Expr → List (CompareOp × Expr × Literal)
  | .compare op left (.constant value) => [(op, left, value)]
  | .compare op (.constant value) right => [(op, right, value)]
  | .logical _ left right => left.comparisons ++ right.comparisons
  | .not inner => inner.comparisons
  | _ => []

/-- The bare members of a condition. -/
def flags : Expr → List Expr
  | .member target name => [.member target name]
  | .logical _ left right => left.flags ++ right.flags
  | .not inner => inner.flags
  | _ => []

end Expr

namespace Scope

/-- Every compared member finds a value of its constant's class, and every bare member a
Boolean. -/
structure Fits (mapping : FieldMapping) (scope : Scope) (document : Json) (e : Expr) : Prop where
  compared : ∀ op member value, (op, member, value) ∈ e.comparisons →
    ∃ found form, scope.read mapping document member = some found ∧
      value.document? = some form ∧ found.SameClass form
  flagged : ∀ member ∈ e.flags, ∃ flag, scope.read mapping document member = some (.bool flag)

/-- A comparison that meets clashing values in a document. -/
def Clashes (mapping : FieldMapping) (scope : Scope) (document : Json)
    (comparison : CompareOp × Expr × Literal) : Prop :=
  ∃ found form, scope.read mapping document comparison.2.1 = some found ∧
    comparison.2.2.document? = some form ∧ comparison.1.Clashes found form

variable {mapping : FieldMapping} {scope : Scope} {document : Json}

theorem Fits.parts {op : LogicalOp} {left right : Expr}
    (fits : scope.Fits mapping document (.logical op left right)) :
    scope.Fits mapping document left ∧ scope.Fits mapping document right := by
  constructor
  all_goals
    constructor
    · intro op member value listed
      exact fits.compared op member value (by simp [Expr.comparisons, listed])
    · intro member listed
      exact fits.flagged member (by simp [Expr.flags, listed])

/-- What a member finds is its value. -/
theorem valueOf_of_resolved {member : Expr} {field : ResolvedField}
    (resolved : scope.resolveExpr mapping member = .ok field) :
    scope.valueOf mapping document member = scope.read mapping document member := by
  obtain ⟨target, name, rfl⟩ := resolveExpr_success resolved
  rw [valueOf]

/-- An accepted comparison has a Boolean value: whether it holds, or the opposite if its
values clash. -/
theorem valueOf_compare {op : CompareOp} {left right : Expr} {c : Condition}
    (accepted : scope.condition mapping (.compare op left right) = .ok c)
    (fits : scope.Fits mapping document (.compare op left right)) :
    ∃ comparison answer, (Expr.compare op left right).comparisons = [comparison] ∧
      scope.valueOf mapping document (.compare op left right) = some (.bool answer) ∧
      (¬ scope.Clashes mapping document comparison →
        (answer = true ↔ scope.Means mapping document (.compare op left right))) ∧
      (scope.Clashes mapping document comparison →
        (answer = true ↔ ¬ scope.Means mapping document (.compare op left right))) := by
  rcases condition_compare_success accepted with ⟨value, rfl, compared⟩ | ⟨value, rfl, compared⟩
  · obtain ⟨field, -, resolved, -, -⟩ := comparison_success compared
    have single : (Expr.compare op left (.constant value)).comparisons = [(op, left, value)] := by
      rw [Expr.comparisons]
    obtain ⟨found, form, finds, formed, same⟩ := fits.compared op left value (by simp [single])
    have answers := same.onValues_iff op same.equalTo_iff
    refine ⟨(op, left, value), op.onValues (some found) (some form), single, ?_, ?_⟩
    · simp only [valueOf, valueOf_of_resolved resolved, finds, formed]
    · simpa only [Clashes, Means, finds, formed, Option.some.injEq, exists_eq_left',
        exists_and_left] using answers
  · obtain ⟨field, -, resolved, -, -⟩ := comparison_success compared
    obtain ⟨target, name, rfl⟩ := resolveExpr_success resolved
    have single : (Expr.compare op (.constant value) (.member target name)).comparisons =
        [(op, .member target name, value)] := by
      rw [Expr.comparisons]
      simp
    obtain ⟨found, form, finds, formed, same⟩ :=
      fits.compared op (.member target name) value (by simp [single])
    -- The member is on the right, so that the values meet in the other order.
    have answers := same.symm.onValues_iff op (same.equalTo_iff.trans same.sameAs_comm)
    rw [← same.clashes_comm op] at answers
    refine ⟨_, op.onValues (some form) (some found), single, ?_, ?_⟩
    · simp only [valueOf, finds, formed]
    · simpa only [Clashes, Means, finds, formed, Option.some.injEq, exists_eq_left',
        exists_and_left] using answers

/-- A predicate has a Boolean value in a document, which is its truth if nothing clashes. -/
def TruthValued (mapping : FieldMapping) (scope : Scope) (document : Json) (e : Expr) : Prop :=
  ∃ answer, scope.valueOf mapping document e = some (.bool answer) ∧
    ((∀ comparison ∈ e.comparisons, ¬ scope.Clashes mapping document comparison) →
      (answer = true ↔ scope.Means mapping document e))

theorem truthValued_compare {op : CompareOp} {left right : Expr} {c : Condition}
    (accepted : scope.condition mapping (.compare op left right) = .ok c)
    (fits : scope.Fits mapping document (.compare op left right)) :
    scope.TruthValued mapping document (.compare op left right) := by
  obtain ⟨comparison, answer, single, value, agrees, -⟩ := valueOf_compare accepted fits
  refine ⟨answer, value, fun clear => ?_⟩
  exact agrees (clear comparison (by simp [single]))

theorem truthValued_logical (op : LogicalOp) {left right : Expr}
    (first : scope.TruthValued mapping document left)
    (second : scope.TruthValued mapping document right) :
    scope.TruthValued mapping document (.logical op left right) := by
  obtain ⟨a, aValue, aTruth⟩ := first
  obtain ⟨b, bValue, bTruth⟩ := second
  refine ⟨op.onTruth a b, ?_, fun clear => ?_⟩
  · simp only [valueOf, aValue, bValue]
    rfl
  · rw [Expr.comparisons, List.forall_mem_append] at clear
    rw [Means]
    cases op <;> simp [LogicalOp.onTruth, LogicalOp.Joins, aTruth clear.1, bTruth clear.2]

theorem truthValued_not {inner : Expr} (valued : scope.TruthValued mapping document inner) :
    scope.TruthValued mapping document inner.not := by
  obtain ⟨a, value, truth⟩ := valued
  refine ⟨!a, ?_, fun clear => ?_⟩
  · simp only [valueOf, value]
    rfl
  · rw [Expr.comparisons] at clear
    rw [Means, ← truth clear]
    simp

theorem truthValued_member {target : Expr} {name : String}
    (fits : scope.Fits mapping document (.member target name)) :
    scope.TruthValued mapping document (.member target name) := by
  obtain ⟨flag, finds⟩ := fits.flagged (.member target name) (by simp [Expr.flags])
  refine ⟨flag, by rw [valueOf, finds], fun _ => ?_⟩
  rw [Means, finds]
  simp [EqualTo, Json.SameAs, Json.equal]

/-- What is negated in an accepted condition is a condition itself. -/
theorem condition_of_not {inner : Expr} {c : Condition}
    (accepted : scope.condition mapping inner.not = .ok c) :
    ∃ part, scope.condition mapping inner = .ok part := by
  rcases condition_not_success accepted with
    ⟨target, name, field, rfl, resolved, -⟩ | ⟨part, innerOk, -⟩
  · rw [condition, resolved]
    exact ⟨_, rfl⟩
  · exact ⟨part, innerOk⟩

/-- Fitting predicates have truth values. The induction is on the predicate; both acceptances give
those of the parts. -/
theorem truthValued_of_condition : ∀ (e : Expr) (c : Condition) (v : Computed),
    scope.condition mapping e = .ok c → scope.computed mapping e = .ok v →
    scope.Fits mapping document e → scope.TruthValued mapping document e
  | .compare op left right, c, v, accepted, computes, fits => truthValued_compare accepted fits
  | .logical op left right, c, v, accepted, computes, fits => by
    obtain ⟨first, second, leftOk, rightOk, -⟩ := condition_logical_success accepted
    obtain ⟨a, b, leftComputes, rightComputes, -⟩ := computed_logical_success computes
    obtain ⟨leftFits, rightFits⟩ := fits.parts
    exact truthValued_logical op (truthValued_of_condition left first a leftOk leftComputes leftFits)
      (truthValued_of_condition right second b rightOk rightComputes rightFits)
  | .not inner, c, v, accepted, computes, fits => by
    obtain ⟨body, innerComputes, -⟩ := computed_not_success computes
    obtain ⟨part, innerOk⟩ := condition_of_not accepted
    have within : scope.Fits mapping document inner :=
      ⟨by simpa only [Expr.comparisons] using fits.compared,
        by simpa only [Expr.flags] using fits.flagged⟩
    exact truthValued_not (truthValued_of_condition inner part body innerOk innerComputes within)
  | .member target name, c, v, accepted, computes, fits => truthValued_member fits
  | .call method target arguments, c, v, accepted, computes, fits =>
    absurd computes (computed_call_rejected method target arguments v)
  | .parameter, c, v, accepted, computes, fits => by cases accepted
  | .constant _, c, v, accepted, computes, fits => by cases accepted
  | .construct _, c, v, accepted, computes, fits => by cases accepted

/-- A condition constructs nothing. -/
theorem constructed_of_condition : ∀ (e : Expr) (c : Condition) (v : Computed),
    scope.condition mapping e = .ok c → scope.computed mapping e = .ok v → e.constructed = []
  | .compare op left right, c, v, accepted, computes => by
    rcases condition_compare_success accepted with
      ⟨value, rfl, compared⟩ | ⟨value, rfl, compared⟩
    all_goals
      obtain ⟨field, -, resolved, -, -⟩ := comparison_success compared
      simp [Expr.constructed, constructed_of_resolved resolved]
  | .logical op left right, c, v, accepted, computes => by
    obtain ⟨first, second, leftOk, rightOk, -⟩ := condition_logical_success accepted
    obtain ⟨leftValue, rightValue, leftComputes, rightComputes, -⟩ :=
      computed_logical_success computes
    rw [Expr.constructed, constructed_of_condition left first leftValue leftOk leftComputes,
      constructed_of_condition right second rightValue rightOk rightComputes, List.append_nil]
  | .not inner, c, v, accepted, computes => by
    obtain ⟨body, innerComputes, -⟩ := computed_not_success computes
    rw [Expr.constructed]
    rcases condition_not_success accepted with
      ⟨target, name, field, rfl, resolved, -⟩ | ⟨part, innerOk, -⟩
    · exact constructed_of_resolved resolved
    · exact constructed_of_condition inner part body innerOk innerComputes
  | .member target name, c, v, accepted, computes => by
    obtain ⟨field, resolved, -⟩ := computed_member_success computes
    exact constructed_of_resolved resolved
  | .call method target arguments, c, v, accepted, computes =>
    absurd computes (computed_call_rejected method target arguments v)
  | .parameter, c, v, accepted, computes => by cases accepted
  | .constant _, c, v, accepted, computes => by cases accepted
  | .construct _, c, v, accepted, computes => by cases accepted

end Scope

/-- A fitting predicate has one answer as a condition and as a computed value, in every
layout, if none of its comparisons clashes; a comparison that clashes has opposite ones. -/
theorem condition_contexts (mapping : FieldMapping) (scope : Scope) (layout : Flattening)
    (e : Expr) (c : Condition) (v : Computed) (accepted : scope.condition mapping e = .ok c)
    (computes : scope.computed mapping e = .ok v) (plain : scope.PlainPaths mapping e)
    (document : Json) (fits : scope.Fits mapping document e) :
    ((∀ comparison ∈ e.comparisons, ¬ scope.Clashes mapping document comparison) →
      ∃ answer, Match.holds document (c.document layout) = .ok answer ∧
        Project.evaluate document (v.form layout) = .ok (some (.bool answer))) ∧
    (∀ op left right, e = .compare op left right →
      (∃ comparison ∈ e.comparisons, scope.Clashes mapping document comparison) →
      ∃ answer, Match.holds document (c.document layout) = .ok answer ∧
        Project.evaluate document (v.form layout) = .ok (some (.bool (!answer)))) := by
  obtain ⟨answer, ran, truth⟩ := Scope.run_answers document e c accepted plain
  rw [Condition.holds_document, ran]
  have readable : v.Readable := Scope.readable_of_computed e v computes
    (by simp [Scope.constructed_of_condition e c v accepted computes])
  have evaluated := (Computed.evaluates document layout v readable).form
  rw [evaluated, Scope.value_of_computed document e v computes]
  constructor
  · intro clear
    obtain ⟨computed, value, agrees⟩ :=
      Scope.truthValued_of_condition e c v accepted computes fits
    have same : computed = answer := by rw [Bool.eq_iff_iff, agrees clear, truth]
    exact ⟨answer, rfl, by rw [value, same]⟩
  · rintro op left right rfl ⟨comparison, listed, clashes⟩
    obtain ⟨only, computed, single, value, -, opposite⟩ := Scope.valueOf_compare accepted fits
    obtain rfl : comparison = only := by simpa [single] using listed
    have reversed : computed = !answer := by
      rw [Bool.eq_iff_iff, opposite clashes, ← truth]
      simp
    exact ⟨answer, rfl, by rw [value, reversed]⟩

/-- `18 <= Age`, not active, and the first person. -/
def idleFirst : Expr :=
  .logical .and
    (.logical .and (.compare .lte (.constant (.int 18)) (.field "Age")) (.not (.field "Active")))
    (.compare .eq (.field "Id") (.constant (.string "p1")))

/-- The first person is idle, and `30.0` years old. -/
def idler : Json :=
  .obj [("_id", .str "p1"), ("Age", .num (.float ⟨0x403E000000000000⟩)), ("Active", .bool false)]

theorem idler_fits : peopleMerged.scope.Fits people idler idleFirst := by
  constructor
  · intro op member value listed
    have compared : (op, member, value) ∈
        [(CompareOp.lte, Expr.field "Age", Literal.int 18), (.eq, .field "Id", .string "p1")] :=
      listed
    simp only [List.mem_cons, List.not_mem_nil, or_false, Prod.mk.injEq] at compared
    rcases compared with ⟨rfl, rfl, rfl⟩ | ⟨rfl, rfl, rfl⟩
    · exact ⟨_, _, rfl, rfl, .num _ _⟩
    · exact ⟨_, _, rfl, rfl, .str _ _⟩
  · intro member listed
    obtain rfl : member = .field "Active" := List.mem_singleton.mp listed
    exact ⟨false, rfl⟩

theorem condition_contexts_idler :
    ∃ c v, peopleMerged.scope.condition people idleFirst = .ok c ∧
      peopleMerged.scope.computed people idleFirst = .ok v ∧
      peopleMerged.scope.PlainPaths people idleFirst ∧
      peopleMerged.scope.Fits people idler idleFirst ∧
      (∀ comparison ∈ idleFirst.comparisons, ¬ peopleMerged.scope.Clashes people idler comparison) ∧
      ∃ answer, Match.holds idler (c.document .merge) = .ok answer ∧
        Project.evaluate idler (v.form .merge) = .ok (some (.bool answer)) := by
  have clear : ∀ comparison ∈ idleFirst.comparisons,
      ¬ peopleMerged.scope.Clashes people idler comparison := by
    rintro comparison listed ⟨found, form, finds, formed, equality, x, y, rfl, rfl, -⟩
    have compared : comparison ∈
        [(CompareOp.lte, Expr.field "Age", Literal.int 18), (.eq, .field "Id", .string "p1")] :=
      listed
    simp only [List.mem_cons, List.not_mem_nil, or_false] at compared
    rcases compared with rfl | rfl
    · simp at equality
    · cases formed
  have plain := peopleMerged_plainPaths idleFirst
  exact ⟨_, _, rfl, rfl, plain, idler_fits, clear,
    (condition_contexts people peopleMerged.scope .merge idleFirst _ _ rfl rfl plain
      idler idler_fits).1 clear⟩

/-- Whether somebody is thirty is answered for `$match` by the value of a number and for
`$project` by its representation. -/
theorem condition_contexts_thirty :
    let thirty : Expr := .compare .eq (.field "Age") (.constant (.int 30))
    let condition : Condition := .compare "Age" .eq (.num (.int 30))
    let computed : Computed := .compare .eq (.field "Age") (.constant (.num (.int 30)))
    peopleMerged.scope.condition people thirty = .ok condition ∧
      peopleMerged.scope.computed people thirty = .ok computed ∧
      peopleMerged.scope.PlainPaths people thirty ∧
      peopleMerged.scope.Fits people idler thirty ∧
      Match.holds idler (condition.document .merge) = .ok true ∧
      Project.evaluate idler (computed.form .merge) = .ok (some (.bool false)) := by
  intro thirty condition computed
  have fits : peopleMerged.scope.Fits people idler thirty := by
    constructor
    · intro op member value listed
      have only : (op, member, value) = (.eq, .field "Age", .int 30) :=
        List.mem_singleton.mp listed
      cases only
      exact ⟨_, _, rfl, rfl, .num _ _⟩
    · intro member listed
      cases listed
  exact ⟨rfl, rfl, peopleMerged_plainPaths thirty, fits, rfl, rfl⟩

end DocQuery
