import DocQuery.Proofs.Expr.Operands
import DocQuery.Proofs.Scope.Projected

/-!
# The grammar of selections

`Scope.Computable` is the least set of expressions that have a computed value: member chains
that resolve, finite constants, constructions under different names, comparisons, connectives
and negations. A selection is lowered if it is a member chain, or constructs at least one
member of these (`Scope.Selectable`). The lowered body and the scope behind it are made by two
recursions over the selection; `selectStage_grammar` shows that they accept the same, and that
they have the same members wherever a document is constructed.
-/
namespace DocQuery

namespace Scope

variable {mapping : FieldMapping} {scope : Scope}

/-- The expressions that have a computed value. -/
inductive Computable (mapping : FieldMapping) (scope : Scope) : Expr → Prop where
  | access {e : Expr} (resolves : scope.Resolves mapping e) : Computable mapping scope e
  | constant {value : Literal} (finite : value.Finite) :
      Computable mapping scope (.constant value)
  | construct {members : List (String × Expr)} (distinct : (members.map Prod.fst).Nodup)
      (each : ∀ member ∈ members, Computable mapping scope member.2) :
      Computable mapping scope (.construct members)
  | compare {op : CompareOp} {left right : Expr} (first : Computable mapping scope left)
      (second : Computable mapping scope right) : Computable mapping scope (.compare op left right)
  | logical {op : LogicalOp} {left right : Expr} (first : Computable mapping scope left)
      (second : Computable mapping scope right) : Computable mapping scope (.logical op left right)
  | not {inner : Expr} (body : Computable mapping scope inner) : Computable mapping scope (.not inner)

/-- The selections: member chains, and constructions of at least one member, all computable
and under different names. -/
def Selectable (mapping : FieldMapping) (scope : Scope) (projection : Expr) : Prop :=
  scope.Resolves mapping projection ∨
    ∃ members, projection = .construct members ∧ members ≠ [] ∧ (members.map Prod.fst).Nodup ∧
      ∀ member ∈ members, scope.Computable mapping member.2

/-! ## Acceptance -/

mutual

/-- An expression with a computed value is in the grammar. -/
theorem computable_of_computed : ∀ (e : Expr) (v : Computed), scope.computed mapping e = .ok v →
    scope.Computable mapping e
  | .member target name, v, success => by
    obtain ⟨field, resolved, -⟩ := computed_member_success success
    exact .access (resolves_iff.mpr ⟨field, resolved⟩)
  | .constant value, v, success => by
    obtain ⟨form, formed, -⟩ := computed_constant_success success
    refine .constant ((Literal.isSome_document? value).mp ?_)
    rw [formed]
    rfl
  | .construct members, v, success => by
    obtain ⟨values, membersOk, -⟩ := computed_construct_success success
    obtain ⟨-, distinct, -⟩ := names_of_computedMembers membersOk
    exact .construct distinct (computable_of_computedMembers members [] values membersOk)
  | .compare op left right, v, success => by
    obtain ⟨first, second, leftOk, rightOk, -⟩ := computed_compare_success success
    exact .compare (computable_of_computed left first leftOk)
      (computable_of_computed right second rightOk)
  | .logical op left right, v, success => by
    obtain ⟨first, second, leftOk, rightOk, -⟩ := computed_logical_success success
    exact .logical (computable_of_computed left first leftOk)
      (computable_of_computed right second rightOk)
  | .not inner, v, success => by
    obtain ⟨body, innerOk, -⟩ := computed_not_success success
    exact .not (computable_of_computed inner body innerOk)
  | .parameter, v, success => absurd success (computed_parameter_rejected v)
  | .call method target arguments, v, success =>
    absurd success (computed_call_rejected method target arguments v)

/-- The same of constructed members. -/
theorem computable_of_computedMembers :
    ∀ (members : List (String × Expr)) (named : List String) (values : List (String × Computed)),
      scope.computedMembers mapping named members = .ok values →
        ∀ member ∈ members, scope.Computable mapping member.2
  | [], _, _, _ => by simp
  | (name, e) :: rest, named, values, success => by
    obtain ⟨-, v, others, first, restOk, -⟩ := computedMembers_cons_success success
    rw [List.forall_mem_cons]
    exact ⟨computable_of_computed e v first,
      computable_of_computedMembers rest (name :: named) others restOk⟩

end

/-- Members under different new names have values if each of them does. -/
theorem computedMembers_of_each {members : List (String × Expr)} {named : List String}
    (distinct : (members.map Prod.fst).Nodup) (fresh : ∀ member ∈ members, member.1 ∉ named)
    (each : ∀ member ∈ members, ∃ v, scope.computed mapping member.2 = .ok v) :
    ∃ values, scope.computedMembers mapping named members = .ok values := by
  induction members generalizing named with
  | nil => exact ⟨[], by rw [computedMembers]⟩
  | cons member rest ih =>
    obtain ⟨name, e⟩ := member
    rw [List.map_cons, List.nodup_cons] at distinct
    rw [List.forall_mem_cons] at fresh each
    obtain ⟨v, first⟩ := each.1
    have freshRest : ∀ member ∈ rest, member.1 ∉ name :: named := by
      intro member listed before
      rcases List.mem_cons.mp before with same | before
      · exact distinct.1 (List.mem_map.mpr ⟨member, listed, same⟩)
      · exact fresh.2 member listed before
    obtain ⟨others, restOk⟩ := ih distinct.2 freshRest each.2
    refine ⟨(name, v) :: others, ?_⟩
    rw [computedMembers, if_neg fresh.1, first, restOk]
    rfl

/-- Every expression of the grammar has a computed value. -/
theorem computed_of_computable {e : Expr} (computable : scope.Computable mapping e) :
    ∃ v, scope.computed mapping e = .ok v := by
  induction computable with
  | access resolves =>
    obtain ⟨target, name, rfl⟩ := resolves.member
    obtain ⟨field, resolved⟩ := resolves_iff.mp resolves
    rw [computed]
    exact bind_succeeds_iff.mpr ⟨field, resolved, _, rfl⟩
  | @constant value finite =>
    obtain ⟨form, formed⟩ := (constantForm_succeeds_iff value).mpr finite
    rw [computed]
    exact bind_succeeds_iff.mpr ⟨form, formed, _, rfl⟩
  | @construct members distinct _ each =>
    have fresh : ∀ member ∈ members, member.1 ∉ [] := by simp
    obtain ⟨values, membersOk⟩ := computedMembers_of_each distinct fresh each
    rw [computed]
    exact bind_succeeds_iff.mpr ⟨values, membersOk, _, rfl⟩
  | compare _ _ first second =>
    obtain ⟨left, leftOk⟩ := first
    obtain ⟨right, rightOk⟩ := second
    rw [computed]
    exact bind_succeeds_iff.mpr ⟨left, leftOk, bind_succeeds_iff.mpr ⟨right, rightOk, _, rfl⟩⟩
  | logical _ _ first second =>
    obtain ⟨left, leftOk⟩ := first
    obtain ⟨right, rightOk⟩ := second
    rw [computed]
    exact bind_succeeds_iff.mpr ⟨left, leftOk, bind_succeeds_iff.mpr ⟨right, rightOk, _, rfl⟩⟩
  | not _ body =>
    obtain ⟨inner, innerOk⟩ := body
    rw [computed]
    exact bind_succeeds_iff.mpr ⟨inner, innerOk, _, rfl⟩

theorem computedMembers_succeeds_iff (members : List (String × Expr)) :
    (∃ values, scope.computedMembers mapping [] members = .ok values) ↔
      (members.map Prod.fst).Nodup ∧ ∀ member ∈ members, scope.Computable mapping member.2 := by
  constructor
  · rintro ⟨values, success⟩
    obtain ⟨-, distinct, -⟩ := names_of_computedMembers success
    exact ⟨distinct, computable_of_computedMembers members [] values success⟩
  · rintro ⟨distinct, each⟩
    exact computedMembers_of_each distinct (by simp) fun member listed =>
      computed_of_computable (each member listed)

/-! ## Bodies and shapes -/

mutual

/-- A shape and a form have the same members wherever an expression constructs a document:
those that it names, in its order. -/
def Mirrored : Expr → Shape → Json → Prop
  | .construct members, .document shapes, .obj forms => MirroredMembers members shapes forms
  | .construct _, _, _ => False
  | _, _, _ => True

/-- The same of constructed members. -/
def MirroredMembers : List (String × Expr) → List (String × Shape) → Members → Prop
  | [], [], [] => True
  | (name, e) :: rest, (shaped, shape) :: shapes, (formed, form) :: forms =>
    shaped = name ∧ formed = name ∧ Mirrored e shape form ∧ MirroredMembers rest shapes forms
  | _, _, _ => False

end

mutual

/-- The shape of an accepted expression mirrors its form. -/
theorem mirrored_of_computed (layout : Flattening) : ∀ (e : Expr) (v : Computed) (shape : Shape),
    scope.computed mapping e = .ok v → scope.shapeOf mapping e = .ok shape →
      Mirrored e shape (v.form layout)
  | .construct members, v, shape, success, shaped => by
    obtain ⟨values, membersOk, rfl⟩ := computed_construct_success success
    rw [shapeOf] at shaped
    obtain ⟨shapes, shapedMembers, done⟩ := bind_success shaped
    cases done
    rw [Computed.form, Mirrored]
    exact mirrored_of_computedMembers layout members [] values shapes membersOk shapedMembers
  | .parameter, _, _, _, _ | .member _ _, _, _, _, _ | .constant _, _, _, _, _
  | .compare _ _ _, _, _, _, _ | .logical _ _ _, _, _, _, _ | .not _, _, _, _, _
  | .call _ _ _, _, _, _, _ => by simp [Mirrored]

/-- The same of constructed members. -/
theorem mirrored_of_computedMembers (layout : Flattening) :
    ∀ (members : List (String × Expr)) (named : List String) (values : List (String × Computed))
      (shapes : List (String × Shape)), scope.computedMembers mapping named members = .ok values →
        scope.shapesOf mapping members = .ok shapes →
          MirroredMembers members shapes (Computed.memberForms layout values)
  | [], named, values, shapes, success, shaped => by
    rw [computedMembers] at success
    rw [shapesOf] at shaped
    cases success
    cases shaped
    simp [Computed.memberForms, MirroredMembers]
  | (name, e) :: rest, named, values, shapes, success, shaped => by
    obtain ⟨-, v, others, first, restOk, rfl⟩ := computedMembers_cons_success success
    rw [shapesOf] at shaped
    obtain ⟨shape, firstShaped, shaped⟩ := bind_success shaped
    obtain ⟨otherShapes, restShaped, done⟩ := bind_success shaped
    cases done
    rw [Computed.memberForms, MirroredMembers]
    exact ⟨rfl, rfl, mirrored_of_computed layout e v shape first firstShaped,
      mirrored_of_computedMembers layout rest (name :: named) others otherShapes restOk restShaped⟩

end

end Scope

namespace Context

variable {context : Context}

theorem withIdentity_eq (members : Members) :
    withIdentity members =
      if members.has "_id" then members else members ++ [("_id", .num (.int 0))] := by
  unfold withIdentity
  cases known : Assoc.has members "_id" with
  | true => rfl
  | false => exact Assoc.insert_of_absent members _ known

theorem selectStage_of_selected {projection : Expr} {values : List (String × Computed)}
    (chosen : context.scope.selected context.mapping projection = .ok values)
    (nonempty : values ≠ []) :
    context.selectStage projection = .ok ⟨"$project",
      .obj (withIdentity (Computed.memberForms context.config.flattening values))⟩ := by
  rw [selectStage_eq, chosen]
  cases values with
  | nil => exact absurd rfl nonempty
  | cons first rest => rfl

theorem nonempty_of_selectStage {projection : Expr} {values : List (String × Computed)}
    {stage : Stage} (chosen : context.scope.selected context.mapping projection = .ok values)
    (success : context.selectStage projection = .ok stage) : values ≠ [] := by
  rintro rfl
  rw [selectStage_eq, chosen] at success
  cases success

theorem selectStage_succeeds_iff (context : Context) (projection : Expr) :
    (∃ body, context.selectStage projection = .ok ⟨"$project", .obj body⟩) ↔
      context.scope.Selectable context.mapping projection := by
  constructor
  · rintro ⟨body, success⟩
    obtain ⟨values, chosen, -⟩ := selectStage_success success
    have nonempty := nonempty_of_selectStage chosen success
    rcases Scope.selected_success chosen with
      ⟨target, name, field, -, resolved, -⟩ | ⟨members, rfl, membersOk⟩
    · exact .inl (Scope.resolves_iff.mpr ⟨field, resolved⟩)
    · obtain ⟨distinct, each⟩ := (Scope.computedMembers_succeeds_iff members).mp ⟨values, membersOk⟩
      refine .inr ⟨members, rfl, ?_, distinct, each⟩
      rintro rfl
      rw [Scope.computedMembers] at membersOk
      cases membersOk
      exact nonempty rfl
  · rintro (resolves | ⟨members, rfl, nonempty, distinct, each⟩)
    · obtain ⟨target, name, rfl⟩ := resolves.member
      obtain ⟨field, resolved⟩ := Scope.resolves_iff.mp resolves
      have chosen : context.scope.selected context.mapping (.member target name) =
          .ok [(field.path, .field field.path)] := by
        rw [Scope.selected, resolved]
        rfl
      exact ⟨_, selectStage_of_selected chosen (by simp)⟩
    · obtain ⟨values, membersOk⟩ :=
        (Scope.computedMembers_succeeds_iff members).mpr ⟨distinct, each⟩
      obtain ⟨names, -⟩ := Scope.names_of_computedMembers membersOk
      refine ⟨_, selectStage_of_selected membersOk ?_⟩
      rintro rfl
      exact nonempty (List.map_eq_nil_iff.mp names.symm)

/-- A selection is lowered if and only if it is in the grammar, in every layout of
connectives. Then there is a scope behind it, and the shape of a constructed document has at
every constructed level the members of the body, in their order; only the body leaves the
identity out. -/
theorem selectStage_grammar (context : Context) (projection : Expr) :
    ((∃ body, context.selectStage projection = .ok ⟨"$project", .obj body⟩) ↔
      context.scope.Selectable context.mapping projection) ∧
    ∀ stage, context.selectStage projection = .ok stage →
      ∃ next, context.scope.project context.mapping projection = .ok next ∧
        ∀ members, projection = .construct members →
          ∃ shapes forms, next = .projection (.document shapes) ∧
            stage = ⟨"$project", .obj
              (if forms.has "_id" then forms else forms ++ [("_id", .num (.int 0))])⟩ ∧
            Scope.MirroredMembers members shapes forms := by
  refine ⟨selectStage_succeeds_iff context projection, fun stage success => ?_⟩
  obtain ⟨values, chosen, rfl⟩ := selectStage_success success
  obtain ⟨next, behind⟩ := Scope.project_of_selected chosen
  refine ⟨next, behind, ?_⟩
  rintro members rfl
  obtain ⟨shape, shaped, done⟩ := bind_success behind
  cases done
  rw [Scope.shapeOf] at shaped
  obtain ⟨shapes, shapedMembers, done⟩ := bind_success shaped
  cases done
  refine ⟨shapes, Computed.memberForms context.config.flattening values, rfl, ?_, ?_⟩
  · rw [withIdentity_eq]
  · exact Scope.mirrored_of_computedMembers _ members [] values shapes chosen shapedMembers

/-- A name that is selected twice is refused, although its members are computable. -/
theorem selectStage_refuses_duplicates :
    ¬ ∀ (context : Context) (projection : Expr),
      (∃ body, context.selectStage projection = .ok ⟨"$project", .obj body⟩) ↔
        context.scope.Resolves context.mapping projection ∨
          ∃ members, projection = .construct members ∧ members ≠ [] ∧
            ∀ member ∈ members, context.scope.Computable context.mapping member.2 := by
  intro always
  have age : peopleMerged.scope.Computable peopleMerged.mapping (.field "Age") :=
    .access (Scope.resolves_iff.mpr ⟨_, rfl⟩)
  obtain ⟨body, success⟩ :=
    (always peopleMerged (.construct [("A", .field "Age"), ("A", .field "Age")])).mpr
      (.inr ⟨_, rfl, by simp, by simpa using age⟩)
  have refused : peopleMerged.selectStage (.construct [("A", .field "Age"), ("A", .field "Age")]) =
    .error (.unsupported (.duplicateMember "A")) := rfl
  cases refused.symm.trans success

/-- An address and the city in it are selected as two members. -/
theorem selectStage_grammar_moved :
    peopleMerged.scope.Selectable people moved ∧
      ∃ next, peopleMerged.scope.project people moved = .ok next ∧
        ∃ members shapes forms, moved = .construct members ∧ next = .projection (.document shapes) ∧
          Scope.MirroredMembers members shapes forms := by
  have accepted : peopleMerged.selectStage moved = .ok ⟨"$project", .obj movedBody⟩ := rfl
  obtain ⟨grammar, agreement⟩ := selectStage_grammar peopleMerged moved
  obtain ⟨next, behind, mirrored⟩ := agreement _ accepted
  obtain ⟨shapes, forms, shaped, -, same⟩ := mirrored _ rfl
  exact ⟨grammar.mp ⟨movedBody, accepted⟩, next, behind, _, shapes, forms, rfl, shaped, same⟩

end Context
end DocQuery
