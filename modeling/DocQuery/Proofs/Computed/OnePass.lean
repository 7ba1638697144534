import DocQuery.Proofs.Computed.Evaluation
import DocQuery.Proofs.Expr.Chains

/-!
# Lowering projections in one pass

A projection is resolved first and laid out after that. Its form can as well be made from the
forms of its parts: `Scope.projectionForm` is that form, and each lemma says how it is made of one
kind of expression. As in predicates, the operands of a chain can be gathered from the
projection itself and laid out one by one (`projectionForm_logical`).
-/
namespace DocQuery

namespace Computed

variable {layout : Flattening}

/-- What a value adds to a chain of another connective is itself. -/
theorem operandForms_of_other (flat : layout ≠ .nested) {op : LogicalOp} {v : Computed}
    (other : ∀ left right, v ≠ .logical op left right) :
    operandForms layout op v = [form layout v] := by
  cases v with
  | logical inner left right =>
    have different : inner ≠ op := by
      rintro rfl
      exact other left right rfl
    cases layout with
    | nested => exact absurd rfl flat
    | flatten | merge => simp [operandForms, form, different]
  | _ => simp [operandForms, form]

theorem operandForms_chain (flat : layout ≠ .nested) (op : LogicalOp) (left right : Computed) :
    operandForms layout op (.logical op left right) =
      operandForms layout op left ++ operandForms layout op right := by
  cases layout with
  | nested => exact absurd rfl flat
  | flatten | merge => simp [operandForms]

theorem form_chain (flat : layout ≠ .nested) (op : LogicalOp) (left right : Computed) :
    form layout (.logical op left right) =
      .obj [(op.operator, .arr (operandForms layout op left ++ operandForms layout op right))] := by
  cases layout with
  | nested => exact absurd rfl flat
  | flatten | merge => rfl

end Computed

namespace Scope

variable (mapping : FieldMapping) (scope : Scope) (layout : Flattening)

/-- The form of a projection. -/
def projectionForm (e : Expr) : Except CompileError Json :=
  (scope.computed mapping e).map (Computed.form layout)

/-- The form of a projection under an operator. -/
def operandForm (e : Expr) : Except CompileError Json :=
  (scope.computed mapping e).map fun v => v.operandForm (v.form layout)

/-- The forms of constructed members after those already named. -/
def memberForms (named : List String) (members : List (String × Expr)) :
    Except CompileError Members :=
  (scope.computedMembers mapping named members).map (Computed.memberForms layout)

variable {mapping scope layout}

theorem computed_construct (members : List (String × Expr)) :
    scope.computed mapping (.construct members) = do
      return .construct (← scope.computedMembers mapping [] members) :=
  rfl

theorem computed_compare (op : CompareOp) (left right : Expr) :
    scope.computed mapping (.compare op left right) = do
      let first ← scope.computed mapping left
      return .compare op first (← scope.computed mapping right) :=
  rfl

theorem computed_logical (op : LogicalOp) (left right : Expr) :
    scope.computed mapping (.logical op left right) = do
      let first ← scope.computed mapping left
      return .logical op first (← scope.computed mapping right) :=
  rfl

theorem computed_not (inner : Expr) :
    scope.computed mapping (.not inner) = do return .not (← scope.computed mapping inner) :=
  rfl

/-- Only a chain has a value that is a chain. -/
theorem computed_ne_chain {op : LogicalOp} {e : Expr} (other : e.kind ≠ .connective op)
    {v : Computed} (success : scope.computed mapping e = .ok v) (left right : Computed) :
    v ≠ .logical op left right := by
  rintro rfl
  cases e with
  | logical inner first second =>
    obtain ⟨_, _, -, -, same⟩ := computed_logical_success success
    cases same
    exact other rfl
  | member target name =>
    obtain ⟨_, -, same⟩ := computed_member_success success
    cases same
  | constant value =>
    obtain ⟨_, -, same⟩ := computed_constant_success success
    cases same
  | construct members =>
    obtain ⟨_, -, same⟩ := computed_construct_success success
    cases same
  | compare op first second =>
    obtain ⟨_, _, -, -, same⟩ := computed_compare_success success
    cases same
  | not inner =>
    obtain ⟨_, -, same⟩ := computed_not_success success
    cases same
  | parameter => exact computed_parameter_rejected _ success
  | call method target arguments => exact computed_call_rejected method target arguments _ success

/-- The operands of a chain are laid out one by one. -/
theorem mapM_projectionForm_operands (flat : layout ≠ .nested) (op : LogicalOp) (e : Expr) :
    (e.operands op).mapM (scope.projectionForm mapping layout) =
      (scope.computed mapping e).map (Computed.operandForms layout op) := by
  refine Expr.mapM_operands_eq
    (fun e => (scope.computed mapping e).map (Computed.operandForms layout op)) ?_ ?_ e
  · intro left right
    rw [computed_logical]
    cases scope.computed mapping left with
    | error error => rfl
    | ok first =>
      cases scope.computed mapping right with
      | error error => rfl
      | ok second => exact congrArg Except.ok (Computed.operandForms_chain flat op first second)
  · intro e other
    rw [projectionForm]
    cases made : scope.computed mapping e with
    | error error => rfl
    | ok v =>
      simp only [Except.map]
      rw [Computed.operandForms_of_other flat (computed_ne_chain other made)]

/-- A connective is laid out in one pass: its operands are gathered first, and then each is
laid out. -/
theorem projectionForm_logical (op : LogicalOp) (left right : Expr) :
    scope.projectionForm mapping layout (.logical op left right) =
      ((Expr.operandsIn layout op left right).mapM (scope.projectionForm mapping layout)).map
        fun forms => .obj [(op.operator, .arr forms)] := by
  by_cases nested : layout = .nested
  · subst nested
    simp only [Expr.operandsIn, List.mapM_cons, List.mapM_nil, projectionForm, computed_logical]
    cases scope.computed mapping left with
    | error error => rfl
    | ok first => cases scope.computed mapping right <;> rfl
  · rw [Expr.operandsIn_of_flat nested, Expr.operands_chain, List.mapM_append,
      mapM_projectionForm_operands nested, mapM_projectionForm_operands nested, projectionForm,
      computed_logical]
    cases scope.computed mapping left with
    | error error => rfl
    | ok first =>
      cases scope.computed mapping right with
      | error error => rfl
      | ok second => exact congrArg Except.ok (Computed.form_chain nested op first second)

theorem projectionForm_not (inner : Expr) :
    scope.projectionForm mapping layout (.not inner) =
      (scope.projectionForm mapping layout inner).map fun form => .obj [("$not", .arr [form])] := by
  rw [projectionForm, projectionForm, computed_not]
  cases scope.computed mapping inner <;> rfl

theorem projectionForm_compare (op : CompareOp) (left right : Expr) :
    scope.projectionForm mapping layout (.compare op left right) = do
      let first ← scope.operandForm mapping layout left
      return .obj [(op.operator, .arr [first, ← scope.operandForm mapping layout right])] := by
  rw [projectionForm, operandForm, operandForm, computed_compare]
  cases scope.computed mapping left with
  | error error => rfl
  | ok first => cases scope.computed mapping right <;> rfl

/-- Only constants have another form under an operator. -/
theorem operandForm_of_other {e : Expr} (other : ∀ value, e ≠ .constant value) :
    scope.operandForm mapping layout e = scope.projectionForm mapping layout e := by
  rw [operandForm, projectionForm]
  cases made : scope.computed mapping e with
  | error error => rfl
  | ok v =>
    refine congrArg Except.ok ?_
    rcases computed_cases made with ⟨path, -, rfl⟩ | ⟨literal, form, rfl, -⟩ | ⟨-, shape⟩
    · rfl
    · exact absurd rfl (other literal)
    · exact (shape layout).2

theorem projectionForm_construct (members : List (String × Expr)) :
    scope.projectionForm mapping layout (.construct members) =
      (scope.memberForms mapping layout [] members).map .obj := by
  rw [projectionForm, memberForms, computed_construct]
  cases scope.computedMembers mapping [] members <;> rfl

/-- A constructed member has a form under a name that no earlier one has. -/
theorem memberForms_cons (named : List String) (name : String) (e : Expr)
    (rest : List (String × Expr)) :
    scope.memberForms mapping layout named ((name, e) :: rest) =
      if name ∈ named then .error (.unsupported (.duplicateMember name))
      else do
        let form ← scope.projectionForm mapping layout e
        return (name, form) :: (← scope.memberForms mapping layout (name :: named) rest) := by
  rw [memberForms, memberForms, projectionForm, computedMembers]
  split
  · rfl
  · cases scope.computed mapping e with
    | error error => rfl
    | ok v => cases scope.computedMembers mapping (name :: named) rest <;> rfl

end Scope
end DocQuery
