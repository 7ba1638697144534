import DocQuery.Proofs.Computed.Selection

/-!
# When computed values can be evaluated

A nested document of one member whose name begins with a dollar sign is read back as an
operator, also if the name is that of a constructed member. `Expr.evaluable` tells the
expressions in which this does no harm, and `project_isOk` shows that it is all that
matters: the `$project` stage of an accepted selection succeeds on a document exactly if
every member that the selection constructs is evaluable, whatever the document and the
layout.
-/
namespace DocQuery

namespace Expr

/-- A marked name can stand alone over an expression: what is under it is taken as it is,
without being evaluated. -/
def staysVerbatim (name : String) (e : Expr) : Bool :=
  name = "$literal" || (e.isAccess && decide (name ∈ Json.extendedTags))

mutual

/-- No constructed name in an expression is taken for an operator on its member. -/
def evaluable : Expr → Bool
  | .construct [(name, e)] => if Sigil.isMarked name then staysVerbatim name e else e.evaluable
  | .construct members => evaluableMembers members
  | .compare _ left right => left.evaluable && right.evaluable
  | .logical _ left right => left.evaluable && right.evaluable
  | .not inner => inner.evaluable
  | _ => true

/-- The same of the values of constructed members. -/
def evaluableMembers : List (String × Expr) → Bool
  | [] => true
  | (_, e) :: rest => e.evaluable && evaluableMembers rest

end

end Expr

namespace Project

variable (document : Json)

theorem evaluateArguments_isOk (arguments : List Json) :
    (evaluateArguments document arguments).isOk =
      arguments.all fun argument => (evaluate document argument).isOk := by
  induction arguments with
  | nil => rfl
  | cons argument rest ih =>
    rw [evaluateArguments_cons, List.all_cons, ← ih]
    rcases evaluate document argument with error | value
    · rfl
    · rcases evaluateArguments document rest with error | values <;> rfl

theorem evaluateMembers_isOk (members : Members) :
    (evaluateMembers document members).isOk =
      members.all fun member => (evaluate document member.2).isOk := by
  induction members with
  | nil =>
    rw [evaluateMembers]
    rfl
  | cons member rest ih =>
    obtain ⟨name, form⟩ := member
    rw [evaluateMembers, List.all_cons, ← ih]
    rcases evaluate document form with error | _ | value
    · rfl
    · rfl
    · rcases evaluateMembers document rest with error | values <;> rfl

theorem project_isOk_eq (body : Members) :
    (project document body).isOk =
      (projectMembers document (implicitIdentity document body) body).isOk := by
  unfold project
  rcases projectMembers document (implicitIdentity document body) body with error | written <;> rfl

/-- An operator that has a value on whatever its arguments are fails only with them. -/
theorem evaluate_operator_isOk {name : String} {arguments : List Json}
    (marked : Sigil.isMarked name = true) (noLiteral : name ≠ "$literal")
    (total : ∀ values, evaluateArguments document arguments = .ok values →
      ∃ answer, applyOperator name values = .ok answer) :
    (evaluate document (.obj [(name, .arr arguments)])).isOk =
      arguments.all fun argument => (evaluate document argument).isOk := by
  rw [evaluate_operator document arguments marked noLiteral, ← evaluateArguments_isOk]
  cases evaluated : evaluateArguments document arguments with
  | error error => rfl
  | ok values =>
    obtain ⟨answer, applied⟩ := total values evaluated
    simp only [bind, Except.bind, applied]
    rfl

theorem evaluate_compare_isOk (op : CompareOp) (left right : Json) :
    (evaluate document (.obj [(op.operator, .arr [left, right])])).isOk =
      ((evaluate document left).isOk && (evaluate document right).isOk) := by
  have noLiteral : op.operator ≠ "$literal" := by cases op <;> decide
  rw [evaluate_operator_isOk document op.marked_operator noLiteral]
  · simp
  · intro values evaluated
    obtain ⟨first, -, evaluated⟩ := bind_success evaluated
    obtain ⟨others, single, evaluated⟩ := bind_success evaluated
    obtain ⟨second, -, single⟩ := bind_success single
    cases single
    cases evaluated
    exact ⟨_, applyOperator_compare op first second⟩

theorem evaluate_connective_isOk (op : LogicalOp) (arguments : List Json) :
    (evaluate document (.obj [(op.operator, .arr arguments)])).isOk =
      arguments.all fun argument => (evaluate document argument).isOk := by
  have noLiteral : op.operator ≠ "$literal" := by cases op <;> decide
  exact evaluate_operator_isOk document op.marked_operator noLiteral
    fun values _ => ⟨_, applyOperator_logical op values⟩

theorem evaluate_not_isOk (argument : Json) :
    (evaluate document (.obj [("$not", .arr [argument])])).isOk =
      (evaluate document argument).isOk := by
  rw [evaluate_operator_isOk document (by decide) (by decide)]
  · simp
  · intro values evaluated
    obtain ⟨value, -, evaluated⟩ := bind_success evaluated
    cases evaluated
    exact ⟨_, rfl⟩

/-- A nested document of one form that is no array. -/
theorem evaluate_single_isOk (name : String) {form : Json} (noArray : ∀ items, form ≠ .arr items) :
    (evaluate document (.obj [(name, form)])).isOk =
      if (Json.obj [(name, form)]).isExtended then true
      else if Sigil.isMarked name then decide (name = "$literal")
      else (evaluate document form).isOk := by
  rw [evaluate]
  · cases (Json.obj [(name, form)]).isExtended with
    | true => rfl
    | false =>
      cases Sigil.isMarked name with
      | true => by_cases literal : name = "$literal" <;> simp [literal, Except.isOk, Except.toBool]
      | false =>
        simp only [Bool.false_eq_true, if_false]
        rcases evaluate document form with error | _ | value <;> rfl
  · exact noArray

/-- A nested document of several forms. -/
theorem evaluate_several_isOk (first second : String × Json) (rest : Members) :
    (evaluate document (.obj (first :: second :: rest))).isOk =
      (first :: second :: rest).all fun member => (evaluate document member.2).isOk := by
  rw [evaluate, ← evaluateMembers_isOk]
  · rcases evaluateMembers document (first :: second :: rest) with error | found <;> rfl
  · simp

end Project

namespace Scope

variable {mapping : FieldMapping} {scope : Scope}

/-- An accepted value is a field, a constant, or a document of operators and members, which
has one form everywhere. -/
theorem computed_cases {e : Expr} {v : Computed} (accepted : scope.computed mapping e = .ok v) :
    (∃ path, e.isAccess = true ∧ v = .field path) ∨
    (∃ literal form, e = .constant literal ∧ literal.document? = some form ∧ v = .constant form) ∨
    (e.isAccess = false ∧ ∀ layout, (∃ members, v.form layout = .obj members) ∧
      Computed.operandForm v (v.form layout) = v.form layout) := by
  cases e with
  | member target name =>
    obtain ⟨field, -, rfl⟩ := computed_member_success accepted
    exact .inl ⟨field.path, rfl, rfl⟩
  | constant literal =>
    obtain ⟨form, formed, rfl⟩ := computed_constant_success accepted
    exact .inr (.inl ⟨literal, form, rfl, formed, rfl⟩)
  | construct members =>
    obtain ⟨values, -, rfl⟩ := computed_construct_success accepted
    exact .inr (.inr ⟨rfl, fun _ => ⟨⟨_, rfl⟩, rfl⟩⟩)
  | compare op left right =>
    obtain ⟨first, second, -, -, rfl⟩ := computed_compare_success accepted
    exact .inr (.inr ⟨rfl, fun _ => ⟨⟨_, rfl⟩, rfl⟩⟩)
  | logical op left right =>
    obtain ⟨first, second, -, -, rfl⟩ := computed_logical_success accepted
    exact .inr (.inr ⟨rfl, fun layout => by cases layout <;> exact ⟨⟨_, rfl⟩, rfl⟩⟩)
  | not inner =>
    obtain ⟨body, -, rfl⟩ := computed_not_success accepted
    exact .inr (.inr ⟨rfl, fun _ => ⟨⟨_, rfl⟩, rfl⟩⟩)
  | parameter => exact absurd accepted (computed_parameter_rejected v)
  | call method target arguments =>
    exact absurd accepted (computed_call_rejected method target arguments v)

/-- A form is a text or a document: it is neither a flag nor a list of arguments. -/
theorem form_cases {e : Expr} {v : Computed} (accepted : scope.computed mapping e = .ok v)
    (layout : Flattening) :
    (e.isAccess = true ∧ ∃ text, v.form layout = .str text) ∨
      (e.isAccess = false ∧ ∃ members, v.form layout = .obj members) := by
  rcases computed_cases accepted with
    ⟨path, access, rfl⟩ | ⟨literal, form, rfl, -, rfl⟩ | ⟨noAccess, document⟩
  · exact .inl ⟨access, _, rfl⟩
  · exact .inr ⟨rfl, _, rfl⟩
  · exact .inr ⟨noAccess, (document layout).1⟩

/-- Under an operator an accepted value evaluates if it does elsewhere. -/
theorem evaluate_operandForm_isOk (document : Json) {e : Expr} {v : Computed} {layout : Flattening}
    (accepted : scope.computed mapping e = .ok v)
    (evaluates : (Project.evaluate document (v.form layout)).isOk = e.evaluable) :
    (Project.evaluate document (Computed.operandForm v (v.form layout))).isOk = e.evaluable := by
  rcases computed_cases accepted with
    ⟨path, -, rfl⟩ | ⟨literal, form, rfl, formed, rfl⟩ | ⟨-, shape⟩
  · exact evaluates
  · have readable : (Computed.constant form).Readable := ⟨literal, formed⟩
    rw [Computed.evaluate_operandForm document layout readable
      (Project.evaluate_literal document form)]
    rfl
  · rw [(shape layout).2, evaluates]

/-- A construction of one member evaluates with its value, or without looking at it. -/
theorem evaluate_construct_single_isOk (document : Json) {name : String} {e : Expr} {v : Computed}
    {layout : Flattening} (accepted : scope.computed mapping e = .ok v)
    (evaluates : (Project.evaluate document (v.form layout)).isOk = e.evaluable) :
    (Project.evaluate document (.obj [(name, v.form layout)])).isOk =
      (Expr.construct [(name, e)]).evaluable := by
  rw [Expr.evaluable, ← evaluates]
  rcases form_cases accepted layout with ⟨access, text, shape⟩ | ⟨noAccess, members, shape⟩
  · rw [shape, Project.evaluate_single_isOk document name (by simp)]
    by_cases tagged : name ∈ Json.extendedTags
    · have marked := Json.marked_of_tag tagged
      simp [Json.isExtended, Json.extended?, tagged, marked, Expr.staysVerbatim, access]
    · simp [Json.isExtended, Json.extended?, tagged, Expr.staysVerbatim]
  · rw [shape, Project.evaluate_single_isOk document name (by simp)]
    simp [Json.isExtended, Json.extended?, Expr.staysVerbatim, noAccess]

/-- A construction evaluates if its members do, unless it has one member that is taken for an
operator. -/
theorem evaluate_construct_isOk (document : Json) {members : List (String × Expr)}
    {values : List (String × Computed)} {layout : Flattening}
    (accepted : scope.computedMembers mapping [] members = .ok values)
    (each : ((Computed.memberForms layout values).all fun member =>
      (Project.evaluate document member.2).isOk) = Expr.evaluableMembers members) :
    (Project.evaluate document (.obj (Computed.memberForms layout values))).isOk =
      (Expr.construct members).evaluable := by
  rcases members with _ | ⟨⟨name, e⟩, _ | ⟨second, rest⟩⟩
  · rw [computedMembers] at accepted
    cases accepted
    rfl
  · obtain ⟨-, v, others, first, nothing, rfl⟩ := computedMembers_cons_success accepted
    rw [computedMembers] at nothing
    cases nothing
    simp only [Computed.memberForms, Expr.evaluableMembers, List.all_cons, List.all_nil,
      Bool.and_true] at each
    exact evaluate_construct_single_isOk document first each
  · obtain ⟨-, v, others, -, restOk, rfl⟩ := computedMembers_cons_success accepted
    obtain ⟨-, w, last, -, -, rfl⟩ := computedMembers_cons_success restOk
    simp only [Computed.memberForms] at each ⊢
    rw [Project.evaluate_several_isOk, each, Expr.evaluable]
    simp

/-- In a layout a value evaluates on a document exactly if an expression is evaluable, and so do
together the operands that it adds to a chain of either connective. -/
structure EvaluatesAs (document : Json) (layout : Flattening) (e : Expr) (v : Computed) : Prop where
  form : (Project.evaluate document (v.form layout)).isOk = e.evaluable
  operands : ∀ op : LogicalOp, ((v.operandForms layout op).all fun form =>
    (Project.evaluate document form).isOk) = e.evaluable

section

variable {document : Json} {layout : Flattening}

/-- A value that adds one form to chains. -/
theorem EvaluatesAs.of_single {e : Expr} {v : Computed}
    (single : ∀ op, v.operandForms layout op = [v.form layout])
    (form : (Project.evaluate document (v.form layout)).isOk = e.evaluable) :
    EvaluatesAs document layout e v where
  form := form
  operands op := by rw [single, List.all_cons, List.all_nil, Bool.and_true, form]

theorem evaluatesAs_member (target : Expr) (name path : String) :
    EvaluatesAs document layout (.member target name) (.field path) := by
  refine .of_single (fun _ => rfl) ?_
  rw [Computed.form, Project.evaluate, Sigil.strip?_mark, Expr.evaluable]
  · rfl
  all_goals simp

theorem evaluatesAs_constant (literal : Literal) (form : Json) :
    EvaluatesAs document layout (.constant literal) (.constant form) := by
  refine .of_single (fun _ => rfl) ?_
  rw [Computed.form, Project.evaluate_literal, Expr.evaluable]
  · rfl
  all_goals simp

theorem evaluatesAs_construct {members : List (String × Expr)} {values : List (String × Computed)}
    (accepted : scope.computedMembers mapping [] members = .ok values)
    (each : ((Computed.memberForms layout values).all fun member =>
      (Project.evaluate document member.2).isOk) = Expr.evaluableMembers members) :
    EvaluatesAs document layout (.construct members) (.construct values) :=
  .of_single (fun _ => rfl) (evaluate_construct_isOk document accepted each)

theorem evaluatesAs_compare (op : CompareOp) {left right : Expr} {first second : Computed}
    (leftOk : scope.computed mapping left = .ok first)
    (rightOk : scope.computed mapping right = .ok second)
    (before : EvaluatesAs document layout left first)
    (behind : EvaluatesAs document layout right second) :
    EvaluatesAs document layout (.compare op left right) (.compare op first second) := by
  refine .of_single (fun _ => rfl) ?_
  rw [Computed.form, Project.evaluate_compare_isOk,
    evaluate_operandForm_isOk document leftOk before.form,
    evaluate_operandForm_isOk document rightOk behind.form, Expr.evaluable]

theorem evaluatesAs_logical (op : LogicalOp) {left right : Expr} {first second : Computed}
    (before : EvaluatesAs document layout left first)
    (behind : EvaluatesAs document layout right second) :
    EvaluatesAs document layout (.logical op left right) (.logical op first second) := by
  -- The whole chain of the same connective, as two of the layouts have it.
  have chain : ((first.operandForms layout op ++ second.operandForms layout op).all fun form =>
      (Project.evaluate document form).isOk) = (Expr.logical op left right).evaluable := by
    rw [List.all_append, before.operands op, behind.operands op, Expr.evaluable]
  have flat : (Project.evaluate document (.obj [(op.operator,
      .arr (first.operandForms layout op ++ second.operandForms layout op))])).isOk =
        (Expr.logical op left right).evaluable := by
    rw [Project.evaluate_connective_isOk, chain]
  cases layout with
  | nested =>
    refine .of_single (fun _ => rfl) ?_
    rw [Computed.form, Project.evaluate_connective_isOk, Expr.evaluable]
    simp [before.form, behind.form]
  | flatten | merge =>
    refine ⟨flat, fun other => ?_⟩
    simp only [Computed.operandForms]
    split
    next same =>
      subst same
      exact chain
    · simp [flat]

theorem evaluatesAs_not {inner : Expr} {body : Computed}
    (evaluates : EvaluatesAs document layout inner body) :
    EvaluatesAs document layout (.not inner) (.not body) := by
  refine .of_single (fun _ => rfl) ?_
  rw [Computed.form, Project.evaluate_not_isOk, evaluates.form, Expr.evaluable]

end

mutual

/-- In every layout an accepted value evaluates as its expression says, on all documents. -/
theorem evaluatesAs_of_computed (document : Json) (layout : Flattening) :
    ∀ (e : Expr) (v : Computed), scope.computed mapping e = .ok v →
      EvaluatesAs document layout e v
  | .member target name, v, accepted => by
    obtain ⟨field, -, rfl⟩ := computed_member_success accepted
    exact evaluatesAs_member target name field.path
  | .constant literal, v, accepted => by
    obtain ⟨form, -, rfl⟩ := computed_constant_success accepted
    exact evaluatesAs_constant literal form
  | .construct members, v, accepted => by
    obtain ⟨values, membersOk, rfl⟩ := computed_construct_success accepted
    have each := evaluate_memberForms_isOk document layout members [] values membersOk
    exact evaluatesAs_construct membersOk each
  | .compare op left right, v, accepted => by
    obtain ⟨first, second, leftOk, rightOk, rfl⟩ := computed_compare_success accepted
    exact evaluatesAs_compare op leftOk rightOk
      (evaluatesAs_of_computed document layout left first leftOk)
      (evaluatesAs_of_computed document layout right second rightOk)
  | .logical op left right, v, accepted => by
    obtain ⟨first, second, leftOk, rightOk, rfl⟩ := computed_logical_success accepted
    exact evaluatesAs_logical op (evaluatesAs_of_computed document layout left first leftOk)
      (evaluatesAs_of_computed document layout right second rightOk)
  | .not inner, v, accepted => by
    obtain ⟨body, innerOk, rfl⟩ := computed_not_success accepted
    exact evaluatesAs_not (evaluatesAs_of_computed document layout inner body innerOk)
  | .parameter, v, accepted => absurd accepted (computed_parameter_rejected v)
  | .call method target arguments, v, accepted =>
    absurd accepted (computed_call_rejected method target arguments v)

/-- The same of constructed members. -/
theorem evaluate_memberForms_isOk (document : Json) (layout : Flattening) :
    ∀ (members : List (String × Expr)) (named : List String) (values : List (String × Computed)),
      scope.computedMembers mapping named members = .ok values →
        ((Computed.memberForms layout values).all fun member =>
          (Project.evaluate document member.2).isOk) = Expr.evaluableMembers members
  | [], named, values, accepted => by
    rw [computedMembers] at accepted
    cases accepted
    rw [Computed.memberForms, Expr.evaluableMembers, List.all_nil]
  | (name, e) :: rest, named, values, accepted => by
    obtain ⟨-, v, others, first, restOk, rfl⟩ := computedMembers_cons_success accepted
    have here := (evaluatesAs_of_computed document layout e v first).form
    have below := evaluate_memberForms_isOk document layout rest (name :: named) others restOk
    rw [Computed.memberForms, Expr.evaluableMembers, List.all_cons, here, below]

end

/-- Constructed members can be projected, with what is behind them, if they are evaluable. -/
theorem projectMembers_isOk (document : Json) (layout : Flattening) {later : Members}
    (laterOk : ∀ output, (Project.projectMembers document output later).isOk = true) :
    ∀ (members : List (String × Expr)) (named : List String) (values : List (String × Computed))
      (output : Members), scope.computedMembers mapping named members = .ok values →
        (Project.projectMembers document output
          (Computed.memberForms layout values ++ later)).isOk = Expr.evaluableMembers members
  | [], named, values, output, accepted => by
    rw [computedMembers] at accepted
    cases accepted
    rw [Computed.memberForms, Expr.evaluableMembers, List.nil_append, laterOk]
  | (name, e) :: rest, named, values, output, accepted => by
    obtain ⟨-, v, others, first, restOk, rfl⟩ := computedMembers_cons_success accepted
    have here := (evaluatesAs_of_computed document layout e v first).form
    have below (written : Members) :=
      projectMembers_isOk document layout laterOk rest (name :: named) others written restOk
    rw [Computed.memberForms, List.cons_append, Project.projectMembers, Expr.evaluableMembers,
      ← here]
    -- A form is no flag, so that it is evaluated and the value is written.
    rcases form_cases first layout with ⟨-, text, shape⟩ | ⟨-, members, shape⟩
    all_goals
      rw [shape, Project.projectMember]
      · rcases evaluate : Project.evaluate document _ with error | found
        · rfl
        · exact below _
      all_goals simp

end Scope

namespace Expr

/-- A selection of which every constructed member is evaluable. -/
def selectable : Expr → Bool
  | .construct members => evaluableMembers members
  | _ => true

end Expr

namespace Context

variable {context : Context}

/-- The `$project` stage of an accepted selection succeeds on a document exactly if the
selection is selectable. -/
theorem project_isOk {projection : Expr} {body : Members}
    (accepted : context.selectStage projection = .ok ⟨"$project", .obj body⟩) (document : Json) :
    (Project.project document body).isOk = projection.selectable := by
  obtain ⟨values, chosen, stage⟩ := Context.selectStage_success accepted
  cases stage
  rcases Scope.selected_success chosen with
    ⟨target, name, field, rfl, resolved, rfl⟩ | ⟨members, rfl, membersOk⟩
  · rw [Project.project_memberForms document _ (by simp [Computed.Readable])]
    rfl
  · rw [Project.project_isOk_eq, Expr.selectable]
    have projected {later : Members}
        (laterOk : ∀ output, (Project.projectMembers document output later).isOk = true)
        (output : Members) := Scope.projectMembers_isOk document context.config.flattening laterOk
      members [] values output membersOk
    unfold withIdentity
    by_cases named : Assoc.has (Computed.memberForms context.config.flattening values) "_id" = true
    · rw [if_pos named]
      have nothing : ∀ output, (Project.projectMembers document output []).isOk = true :=
        fun _ => rfl
      have whole := projected nothing
      simp only [List.append_nil] at whole
      exact whole _
    · rw [if_neg named, Assoc.insert_of_absent _ _ (by simpa using named)]
      exact projected (fun _ => rfl) _

end Context
end DocQuery
