import DocQuery.Compile.Build

/-!
# What acceptance says

An accepted expression is resolved part by part. Each `_success` lemma reads one
constructor of an accepted expression: which of its parts are accepted, and the
condition, value or stage that is made of what they become. Operations are read in the
same way, one by one.
-/
namespace DocQuery

/-- A sequence of two steps succeeds only if both do. -/
theorem bind_success {ε α β : Type} {first : Except ε α} {next : α → Except ε β} {result : β}
    (success : (first >>= next) = .ok result) :
    ∃ middle, first = .ok middle ∧ next middle = .ok result := by
  rcases first with error | middle
  · cases success
  · exact ⟨middle, rfl, success⟩

theorem map_success {ε α β : Type} {first : Except ε α} {make : α → β} {result : β}
    (success : first.map make = .ok result) : ∃ middle, first = .ok middle ∧ result = make middle := by
  rcases first with error | middle
  · cases success
  · cases success
    exact ⟨middle, rfl, rfl⟩

theorem constantForm_success {value : Literal} {form : Json}
    (success : constantForm value = .ok form) : value.document? = some form := by
  unfold constantForm at success
  split at success
  · cases success
    assumption
  · cases success

theorem constantForms_success {values : List Literal} {forms : List Json}
    (success : constantForms values = .ok forms) :
    values.map Literal.document? = forms.map some := by
  induction values generalizing forms with
  | nil =>
    cases success
    rfl
  | cons value rest ih =>
    simp only [constantForms, List.mapM_cons] at success
    obtain ⟨form, first, success⟩ := bind_success success
    obtain ⟨others, tail, success⟩ := bind_success success
    cases success
    rw [List.map_cons, List.map_cons, constantForm_success first, ih tail]

namespace Scope

variable {mapping : FieldMapping} {scope : Scope}

theorem comparison_success {op : CompareOp} {member : Expr} {value : Literal} {c : Condition}
    (success : scope.comparison mapping op member value = .ok c) :
    ∃ field form, scope.resolveExpr mapping member = .ok field ∧ value.document? = some form ∧
      c = .compare field.path op form := by
  obtain ⟨field, resolved, success⟩ := bind_success success
  obtain ⟨form, formed, success⟩ := bind_success success
  cases success
  exact ⟨field, form, resolved, constantForm_success formed, rfl⟩

/-- A comparison is accepted between a member and a constant, on either side. -/
theorem condition_compare_success {op : CompareOp} {left right : Expr} {c : Condition}
    (success : scope.condition mapping (.compare op left right) = .ok c) :
    (∃ value, right = .constant value ∧ scope.comparison mapping op left value = .ok c) ∨
    (∃ value, left = .constant value ∧ scope.comparison mapping op.swap right value = .ok c) := by
  cases right with
  | constant value =>
    cases left with
    | constant other => cases success
    | _ => exact .inl ⟨value, rfl, success⟩
  | _ =>
    cases left with
    | constant value => exact .inr ⟨value, rfl, success⟩
    | _ => cases success

theorem condition_logical_success {op : LogicalOp} {left right : Expr} {c : Condition}
    (success : scope.condition mapping (.logical op left right) = .ok c) :
    ∃ first second, scope.condition mapping left = .ok first ∧
      scope.condition mapping right = .ok second ∧ c = .logical op first second := by
  obtain ⟨first, leftOk, success⟩ := bind_success success
  obtain ⟨second, rightOk, success⟩ := bind_success success
  cases success
  exact ⟨first, second, leftOk, rightOk, rfl⟩

theorem condition_member_success {target : Expr} {name : String} {c : Condition}
    (success : scope.condition mapping (.member target name) = .ok c) :
    ∃ field, scope.resolveExpr mapping (.member target name) = .ok field ∧
      c = .compare field.path .eq (.bool true) := by
  obtain ⟨field, resolved, success⟩ := bind_success success
  cases success
  exact ⟨field, resolved, rfl⟩

/-- The negation of a bare member is a comparison of its own. -/
theorem condition_not_success {inner : Expr} {c : Condition}
    (success : scope.condition mapping (.not inner) = .ok c) :
    (∃ target name field, inner = .member target name ∧
      scope.resolveExpr mapping inner = .ok field ∧ c = .compare field.path .ne (.bool true)) ∨
    (∃ body, scope.condition mapping inner = .ok body ∧ c = .not body) := by
  cases inner with
  | member target name =>
    obtain ⟨field, resolved, success⟩ := bind_success success
    cases success
    exact .inl ⟨target, name, field, rfl, resolved, rfl⟩
  | _ =>
    obtain ⟨body, innerOk, success⟩ := bind_success success
    cases success
    exact .inr ⟨body, innerOk, rfl⟩

/-- The only accepted call asks whether a constant array contains a member. -/
theorem condition_call_success {method : String} {target : Expr} {arguments : List Expr}
    {c : Condition} (success : scope.condition mapping (.call method target arguments) = .ok c) :
    ∃ items member field forms, method = "contains" ∧ target = .constant (.array items) ∧
      arguments = [member] ∧ scope.resolveExpr mapping member = .ok field ∧
      items.map Literal.document? = forms.map some ∧ c = .oneOf field.path forms := by
  unfold condition at success
  split at success
  next contains =>
    split at success
    next items member =>
      obtain ⟨field, resolved, success⟩ := bind_success success
      obtain ⟨forms, formed, success⟩ := bind_success success
      cases success
      exact ⟨items, member, field, forms, contains, rfl, rfl, resolved,
        constantForms_success formed, rfl⟩
    · cases success
  · cases success

theorem computed_member_success {target : Expr} {name : String} {v : Computed}
    (success : scope.computed mapping (.member target name) = .ok v) :
    ∃ field, scope.resolveExpr mapping (.member target name) = .ok field ∧
      v = .field field.path := by
  obtain ⟨field, resolved, success⟩ := bind_success success
  cases success
  exact ⟨field, resolved, rfl⟩

theorem computed_constant_success {literal : Literal} {v : Computed}
    (success : scope.computed mapping (.constant literal) = .ok v) :
    ∃ form, literal.document? = some form ∧ v = .constant form := by
  obtain ⟨form, formed, success⟩ := bind_success success
  cases success
  exact ⟨form, constantForm_success formed, rfl⟩

theorem computed_construct_success {members : List (String × Expr)} {v : Computed}
    (success : scope.computed mapping (.construct members) = .ok v) :
    ∃ values, scope.computedMembers mapping [] members = .ok values ∧ v = .construct values := by
  obtain ⟨values, membersOk, success⟩ := bind_success success
  cases success
  exact ⟨values, membersOk, rfl⟩

theorem computed_compare_success {op : CompareOp} {left right : Expr} {v : Computed}
    (success : scope.computed mapping (.compare op left right) = .ok v) :
    ∃ first second, scope.computed mapping left = .ok first ∧
      scope.computed mapping right = .ok second ∧ v = .compare op first second := by
  obtain ⟨first, leftOk, success⟩ := bind_success success
  obtain ⟨second, rightOk, success⟩ := bind_success success
  cases success
  exact ⟨first, second, leftOk, rightOk, rfl⟩

theorem computed_logical_success {op : LogicalOp} {left right : Expr} {v : Computed}
    (success : scope.computed mapping (.logical op left right) = .ok v) :
    ∃ first second, scope.computed mapping left = .ok first ∧
      scope.computed mapping right = .ok second ∧ v = .logical op first second := by
  obtain ⟨first, leftOk, success⟩ := bind_success success
  obtain ⟨second, rightOk, success⟩ := bind_success success
  cases success
  exact ⟨first, second, leftOk, rightOk, rfl⟩

theorem computed_not_success {inner : Expr} {v : Computed}
    (success : scope.computed mapping (.not inner) = .ok v) :
    ∃ body, scope.computed mapping inner = .ok body ∧ v = .not body := by
  obtain ⟨body, innerOk, success⟩ := bind_success success
  cases success
  exact ⟨body, innerOk, rfl⟩

theorem computed_parameter_rejected (v : Computed) :
    scope.computed mapping .parameter ≠ .ok v := by
  intro success
  cases success

theorem computed_call_rejected (method : String) (target : Expr) (arguments : List Expr)
    (v : Computed) : scope.computed mapping (.call method target arguments) ≠ .ok v := by
  intro success
  cases success

/-- A constructed member is accepted under a name that no earlier one has. -/
theorem computedMembers_cons_success {named : List String} {name : String} {e : Expr}
    {rest : List (String × Expr)} {values : List (String × Computed)}
    (success : scope.computedMembers mapping named ((name, e) :: rest) = .ok values) :
    name ∉ named ∧ ∃ v others, scope.computed mapping e = .ok v ∧
      scope.computedMembers mapping (name :: named) rest = .ok others ∧
      values = (name, v) :: others := by
  rw [computedMembers] at success
  split at success
  · cases success
  next fresh =>
    obtain ⟨v, first, success⟩ := bind_success success
    obtain ⟨others, restOk, success⟩ := bind_success success
    cases success
    exact ⟨fresh, v, others, first, restOk, rfl⟩

/-- The members of a selection: a bare member lies under its own path. -/
def selected (mapping : FieldMapping) (scope : Scope) (projection : Expr) :
    Except CompileError (List (String × Computed)) :=
  match projection with
  | .member _ _ => do
    let field ← scope.resolveExpr mapping projection
    return [(field.path, .field field.path)]
  | .construct members => scope.computedMembers mapping [] members
  | e => .error (.unsupported (.notSelectable e.kind))

/-- A selection is a member access or a construction. -/
theorem selected_success {projection : Expr} {values : List (String × Computed)}
    (success : scope.selected mapping projection = .ok values) :
    (∃ target name field, projection = .member target name ∧
      scope.resolveExpr mapping projection = .ok field ∧
      values = [(field.path, .field field.path)]) ∨
    (∃ members, projection = .construct members ∧
      scope.computedMembers mapping [] members = .ok values) := by
  cases projection with
  | member target name =>
    obtain ⟨field, resolved, success⟩ := bind_success success
    cases success
    exact .inl ⟨target, name, field, rfl, resolved, rfl⟩
  | construct members => exact .inr ⟨members, rfl, success⟩
  | _ => cases success

end Scope

namespace Context

variable {context : Context}

theorem filterStage_success {predicate : Expr} {stage : Stage}
    (success : context.filterStage predicate = .ok stage) :
    ∃ c, context.scope.condition context.mapping predicate = .ok c ∧
      stage = ⟨"$match", .obj (c.document context.config.flattening)⟩ := by
  obtain ⟨c, accepted, success⟩ := bind_success success
  cases success
  exact ⟨c, accepted, rfl⟩

/-- Only the forms of the selected members depend on the layout of connectives. -/
theorem selectStage_eq (context : Context) (projection : Expr) :
    context.selectStage projection =
      match context.scope.selected context.mapping projection with
      | .error error => .error error
      | .ok [] => .error (.unsupported .emptyConstruction)
      | .ok values => .ok ⟨"$project",
          .obj (withIdentity (Computed.memberForms context.config.flattening values))⟩ := by
  have chosen : context.selection projection =
      (context.scope.selected context.mapping projection).map
        (Computed.memberForms context.config.flattening) := by
    unfold selection Scope.selected
    cases projection with
    | member target name =>
      cases context.scope.resolveExpr context.mapping (.member target name) <;> rfl
    | construct members =>
      simp only
      cases context.scope.computedMembers context.mapping [] members <;> rfl
    | _ => rfl
  unfold selectStage
  rw [chosen]
  rcases context.scope.selected context.mapping projection with error | _ | ⟨first, rest⟩ <;> rfl

theorem selectStage_success {projection : Expr} {stage : Stage}
    (success : context.selectStage projection = .ok stage) :
    ∃ values, context.scope.selected context.mapping projection = .ok values ∧
      stage = ⟨"$project",
        .obj (withIdentity (Computed.memberForms context.config.flattening values))⟩ := by
  rw [selectStage_eq] at success
  split at success
  · cases success
  · cases success
  next values _ chosen =>
    cases success
    exact ⟨values, chosen, rfl⟩

/-- The stage that the rule for its kind makes of an operation. -/
def stageOf (context : Context) : Operation → Except CompileError Stage
  | .filter predicate => context.filterStage predicate
  | .select projection => context.selectStage projection
  | .orderBy key => context.sortStage key 1
  | .orderByDescending key => context.sortStage key (-1)
  | .skip e => countStage "$skip" .skip e
  | .take e => countStage "$limit" .take e

/-- Whatever rules are registered, no other stage is made of an operation. -/
theorem stage_success {rules : RuleSet} {operation : Operation} {stage : Stage}
    (success : context.stage rules operation = .ok stage) :
    context.stageOf operation = .ok stage := by
  unfold Context.stage at success
  cases registered : rules operation.kind with
  | none =>
    rw [registered] at success
    cases success
  | some rule =>
    rw [registered] at success
    -- A rule refuses the operations of other kinds.
    cases rule <;> cases operation <;> first | exact success | cases success

end Context

namespace Compiler

variable {compiler : Compiler}

/-- The stage that the rules make of an operation in a scope. -/
def stageIn (compiler : Compiler) (scope : Scope) (operation : Operation) :
    Except CompileError Stage :=
  Context.stage ⟨compiler.mapping, scope, compiler.config⟩ compiler.rules operation

theorem lower_success {scope next : Scope} {operation : Operation} {stage : Stage}
    (success : compiler.lower scope operation = .ok (stage, next)) :
    compiler.stageIn scope operation = .ok stage ∧
      compiler.scopeAfter scope operation = .ok next := by
  obtain ⟨made, staged, success⟩ := bind_success success
  obtain ⟨behind, reached, success⟩ := bind_success success
  cases success
  exact ⟨staged, reached⟩

theorem compileFrom_cons_success {position : Nat} {scope : Scope} {operation : Operation}
    {rest : List Operation} {query : CompiledQuery}
    (success : compiler.compileFrom position scope (operation :: rest) = .ok query) :
    ∃ stage next others, compiler.stageIn scope operation = .ok stage ∧
      compiler.scopeAfter scope operation = .ok next ∧
      compiler.compileFrom (position + 1) next rest = .ok others ∧
      query = { others with pipeline := stage :: others.pipeline } := by
  rw [compileFrom] at success
  split at success
  · cases success
  next stage next lowered =>
    split at success
    · cases success
    next others tail =>
      cases success
      obtain ⟨staged, reached⟩ := lower_success lowered
      exact ⟨stage, next, others, staged, reached, tail, rfl⟩

end Compiler
end DocQuery
