import DocQuery.Proofs.Condition.Grammar
import DocQuery.Proofs.Expr.Chains

/-!
# Lowering predicates in one pass

A predicate is resolved first and laid out after that, and the layout gathers the operands of
a chain from the resolved condition. They can as well be gathered from the predicate itself
and lowered one by one, from left to right (`predicate_logical`): the same operands are refused
first, and the same document is made of them.
-/
namespace DocQuery

namespace Condition

variable {layout : Flattening}

/-- What a condition adds to a chain of another connective is itself. -/
theorem operands_of_other (flat : layout ≠ .nested) {op : LogicalOp} {c : Condition}
    (other : ∀ left right, c ≠ .logical op left right) :
    operands layout op c = [document layout c] := by
  cases c with
  | logical inner left right =>
    have different : inner ≠ op := by
      rintro rfl
      exact other left right rfl
    cases layout with
    | nested => exact absurd rfl flat
    | flatten | merge => simp [operands, document, different]
  | _ => simp [operands, document]

theorem operands_chain (flat : layout ≠ .nested) (op : LogicalOp) (left right : Condition) :
    operands layout op (.logical op left right) =
      operands layout op left ++ operands layout op right := by
  cases layout with
  | nested => exact absurd rfl flat
  | flatten | merge => simp [operands]

theorem document_chain (flat : layout ≠ .nested) (op : LogicalOp) (left right : Condition) :
    document layout (.logical op left right) =
      connective layout op (operands layout op left ++ operands layout op right) := by
  cases layout with
  | nested => exact absurd rfl flat
  | flatten | merge => rfl

end Condition

namespace Scope

variable (mapping : FieldMapping) (scope : Scope) (layout : Flattening)

/-- The laid out condition of a predicate. -/
def predicate (e : Expr) : Except CompileError Members :=
  (scope.condition mapping e).map (Condition.document layout)

variable {mapping scope layout}

/-- Only a chain has a condition that is a chain. -/
theorem condition_ne_chain {op : LogicalOp} {e : Expr} (other : e.kind ≠ .connective op)
    {c : Condition}
    (success : scope.condition mapping e = .ok c) (left right : Condition) :
    c ≠ .logical op left right := by
  rintro rfl
  cases e with
  | logical inner first second =>
    obtain ⟨_, _, -, -, same⟩ := condition_logical_success success
    cases same
    exact other rfl
  | compare op first second =>
    rcases condition_compare_success success with ⟨_, _, compared⟩ | ⟨_, _, compared⟩
    all_goals
      obtain ⟨_, _, -, -, same⟩ := comparison_success compared
      cases same
  | not inner =>
    rcases condition_not_success success with ⟨_, _, _, _, _, same⟩ | ⟨_, _, same⟩ <;> cases same
  | member target name =>
    obtain ⟨_, -, same⟩ := condition_member_success success
    cases same
  | call method target arguments =>
    obtain ⟨_, _, _, _, -, -, -, -, -, same⟩ := condition_call_success success
    cases same
  | _ => cases success

/-- The operands of a chain are laid out one by one. -/
theorem mapM_predicate_operands (flat : layout ≠ .nested) (op : LogicalOp) (e : Expr) :
    (e.operands op).mapM (scope.predicate mapping layout) =
      (scope.condition mapping e).map (Condition.operands layout op) := by
  refine Expr.mapM_operands_eq
    (fun e => (scope.condition mapping e).map (Condition.operands layout op)) ?_ ?_ e
  · intro left right
    rw [condition]
    cases scope.condition mapping left with
    | error error => rfl
    | ok first =>
      cases scope.condition mapping right with
      | error error => rfl
      | ok second => exact congrArg Except.ok (Condition.operands_chain flat op first second)
  · intro e other
    rw [predicate]
    cases made : scope.condition mapping e with
    | error error => rfl
    | ok c =>
      simp only [Except.map]
      rw [Condition.operands_of_other flat (condition_ne_chain other made)]

/-- A connective is laid out in one pass: its operands are gathered first, and then each is
laid out. -/
theorem predicate_logical (op : LogicalOp) (left right : Expr) :
    scope.predicate mapping layout (.logical op left right) =
      ((Expr.operandsIn layout op left right).mapM (scope.predicate mapping layout)).map
        (Condition.connective layout op) := by
  by_cases nested : layout = .nested
  · subst nested
    simp only [Expr.operandsIn, List.mapM_cons, List.mapM_nil, predicate, condition]
    cases scope.condition mapping left with
    | error error => rfl
    | ok first => cases scope.condition mapping right <;> rfl
  · rw [Expr.operandsIn_of_flat nested, Expr.operands_chain, List.mapM_append,
      mapM_predicate_operands nested, mapM_predicate_operands nested, predicate, condition]
    cases scope.condition mapping left with
    | error error => rfl
    | ok first =>
      cases scope.condition mapping right with
      | error error => rfl
      | ok second => exact congrArg Except.ok (Condition.document_chain nested op first second)

/-- A negation is laid out around its laid out operand, unless that is a bare member. -/
theorem predicate_not {inner : Expr} (compound : inner.isAccess = false) :
    scope.predicate mapping layout (.not inner) =
      (scope.predicate mapping layout inner).map fun body => [("$nor", .arr [.obj body])] := by
  rw [predicate, predicate, condition_not compound]
  cases scope.condition mapping inner <;> rfl

end Scope

/-- The stage of a filter holds the document that one pass makes. -/
theorem Context.filterStage_eq_predicate (context : Context) (e : Expr) :
    context.filterStage e =
      (context.scope.predicate context.mapping context.config.flattening e).map
        fun body => ⟨"$match", .obj body⟩ := by
  rw [filterStage, Scope.predicate]
  cases context.scope.condition context.mapping e <;> rfl

end DocQuery
