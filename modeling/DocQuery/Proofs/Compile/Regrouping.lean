import DocQuery.Proofs.Computed.OnePass
import DocQuery.Proofs.Condition.Grammar
import DocQuery.Proofs.Condition.OnePass
import Mathlib.Data.List.Forall2

/-!
# Regrouping chains of connectives

`a && (b && c)` and `(a && b) && c` are one chain in two groupings. `Expr.Regrouped` is the
least congruence that relates the groupings of every chain, wherever in an expression it
stands. The flat and the merged layout gather the operands of a chain before they lower them,
and nothing else that is asked of an expression depends on the grouping of its parts.
`lowering_regrouped` shows that regrouped expressions are lowered to the same documents, or
refused with the same error.
-/
namespace DocQuery

namespace Expr

/-- Two expressions that differ in the grouping of chains of a connective, at any places. -/
inductive Regrouped : Expr → Expr → Prop where
  | refl (e : Expr) : Regrouped e e
  | symm {a b : Expr} (same : Regrouped a b) : Regrouped b a
  | trans {a b c : Expr} (first : Regrouped a b) (second : Regrouped b c) : Regrouped a c
  | chain (op : LogicalOp) (a b c : Expr) :
      Regrouped (.logical op (.logical op a b) c) (.logical op a (.logical op b c))
  | logical (op : LogicalOp) {left right left' right' : Expr} (first : Regrouped left left')
      (second : Regrouped right right') : Regrouped (.logical op left right) (.logical op left' right')
  | not {inner inner' : Expr} (body : Regrouped inner inner') : Regrouped (.not inner) (.not inner')
  | compare (op : CompareOp) {left right left' right' : Expr} (first : Regrouped left left')
      (second : Regrouped right right') : Regrouped (.compare op left right) (.compare op left' right')
  | member (name : String) {target target' : Expr} (below : Regrouped target target') :
      Regrouped (.member target name) (.member target' name)
  | construct (before after : List (String × Expr)) (name : String) {value value' : Expr}
      (part : Regrouped value value') :
      Regrouped (.construct (before ++ (name, value) :: after))
        (.construct (before ++ (name, value') :: after))
  | target (method : String) (arguments : List Expr) {target target' : Expr}
      (part : Regrouped target target') :
      Regrouped (.call method target arguments) (.call method target' arguments)
  | argument (method : String) (target : Expr) (before after : List Expr) {value value' : Expr}
      (part : Regrouped value value') :
      Regrouped (.call method target (before ++ value :: after))
        (.call method target (before ++ value' :: after))

/-! ## What the grouping does not change -/

/-- The constant that an expression is. -/
def constant? : Expr → Option Literal
  | .constant value => some value
  | _ => none

theorem constant?_eq_some_iff (e : Expr) (value : Literal) :
    e.constant? = some value ↔ e = .constant value := by
  cases e <;> simp [constant?]

/-- Two expressions that look alike from outside: of one kind, with the same names from the
parameter on, and the same constant if they are constants. -/
structure LooksLike (a b : Expr) : Prop where
  kind : a.kind = b.kind
  chain : a.chainFrom? = b.chainFrom?
  constant : a.constant? = b.constant?

instance : Std.Refl LooksLike :=
  ⟨fun _ => ⟨rfl, rfl, rfl⟩⟩

/-- Regrouped expressions look alike. -/
theorem Regrouped.looksLike {a b : Expr} (same : Regrouped a b) : a.LooksLike b := by
  induction same with
  | refl e => exact ⟨rfl, rfl, rfl⟩
  | symm _ ih => exact ⟨ih.kind.symm, ih.chain.symm, ih.constant.symm⟩
  | trans _ _ first second =>
    exact ⟨first.kind.trans second.kind, first.chain.trans second.chain,
      first.constant.trans second.constant⟩
  | member name _ ih => exact ⟨rfl, by rw [chainFrom?, chainFrom?, ih.chain], rfl⟩
  | _ => exact ⟨rfl, rfl, rfl⟩

theorem memberChain?_eq (e : Expr) :
    e.memberChain? = match e.kind with
      | .member _ => e.chainFrom?
      | _ => none := by
  cases e <;> rfl

theorem LooksLike.isAccess {a b : Expr} (alike : a.LooksLike b) : a.isAccess = b.isAccess := by
  have access (e : Expr) : e.isAccess = match e.kind with
      | .member _ => true
      | _ => false := by
    cases e <;> rfl
  rw [access, access, alike.kind]

/-! ## Lowering by operands -/

/-- Two expressions are lowered alike, alone and in chains. -/
structure SameUnder {β : Type} (lower : Expr → Except CompileError β) (a b : Expr) : Prop where
  alone : lower a = lower b
  inChain (op : LogicalOp) : (a.operands op).mapM lower = (b.operands op).mapM lower

/-- A connective is lowered by its operands, without regard to their grouping. -/
def ByOperands {β : Type} (lower : Expr → Except CompileError β) : Prop :=
  ∀ op : LogicalOp, ∃ finish : List β → β, ∀ left right : Expr,
    lower (.logical op left right) = (((logical op left right).operands op).mapM lower).map finish

section

variable {β : Type} {lower : Expr → Except CompileError β}

theorem SameUnder.symm {a b : Expr} (same : SameUnder lower a b) : SameUnder lower b a :=
  ⟨same.alone.symm, fun op => (same.inChain op).symm⟩

theorem SameUnder.trans {a b c : Expr} (first : SameUnder lower a b)
    (second : SameUnder lower b c) : SameUnder lower a c :=
  ⟨first.alone.trans second.alone, fun op => (first.inChain op).trans (second.inChain op)⟩

/-- What is no connective is in a chain what it is alone. -/
theorem SameUnder.of_alone {a b : Expr} (kind : a.kind = b.kind)
    (single : ∀ op, a.kind ≠ .connective op) (alone : lower a = lower b) : SameUnder lower a b := by
  refine ⟨alone, fun op => ?_⟩
  rw [operands_of_other (single op), operands_of_other (kind ▸ single op), mapM_singleton,
    mapM_singleton, alone]

/-- Connectives with the same lowered operands are lowered alike. -/
theorem ByOperands.sameUnder (byOperands : ByOperands lower) {op : LogicalOp}
    {left right left' right' : Expr}
    (same : ((logical op left right).operands op).mapM lower =
      ((logical op left' right').operands op).mapM lower) :
    SameUnder lower (.logical op left right) (.logical op left' right') := by
  obtain ⟨finish, lowered⟩ := byOperands op
  have alone : lower (.logical op left right) = lower (.logical op left' right') := by
    rw [lowered, lowered, same]
  refine ⟨alone, fun outer => ?_⟩
  by_cases equal : op = outer
  · subst equal
    exact same
  · have other (first second : Expr) : (logical op first second).kind ≠ .connective outer := by
      simpa [kind] using equal
    rw [operands_of_other (other left right), operands_of_other (other left' right'),
      mapM_singleton, mapM_singleton, alone]

theorem ByOperands.chain (byOperands : ByOperands lower) (op : LogicalOp) (a b c : Expr) :
    SameUnder lower (.logical op (.logical op a b) c) (.logical op a (.logical op b c)) := by
  apply byOperands.sameUnder
  simp only [operands_chain, List.append_assoc]

theorem ByOperands.logical (byOperands : ByOperands lower) (op : LogicalOp)
    {left right left' right' : Expr} (first : SameUnder lower left left')
    (second : SameUnder lower right right') :
    SameUnder lower (.logical op left right) (.logical op left' right') := by
  apply byOperands.sameUnder
  rw [operands_chain, operands_chain, List.mapM_append, List.mapM_append, first.inChain op,
    second.inChain op]

end

end Expr

namespace Scope

variable {mapping : FieldMapping} {scope : Scope} {layout : Flattening} {a b : Expr}

theorem resolveExpr_congr (alike : a.LooksLike b) :
    scope.resolveExpr mapping a = scope.resolveExpr mapping b := by
  unfold resolveExpr
  rw [Expr.memberChain?_eq a, Expr.memberChain?_eq b, alike.kind, alike.chain]

/-! ## Predicates -/

theorem predicate_byOperands (flat : layout ≠ .nested) :
    Expr.ByOperands (scope.predicate mapping layout) := by
  intro op
  refine ⟨Condition.connective layout op, fun left right => ?_⟩
  rw [predicate_logical, Expr.operandsIn_of_flat flat]

theorem condition_not_access {inner : Expr} (access : inner.isAccess = true) :
    scope.condition mapping (.not inner) = do
      let field ← scope.resolveExpr mapping inner
      return .compare field.path .ne (.bool true) := by
  cases inner with
  | member target name => rfl
  | _ => cases access

/-- A comparison is told apart by the constants among its sides. -/
theorem condition_compare (op : CompareOp) (left right : Expr) :
    scope.condition mapping (.compare op left right) =
      match left.constant?, right.constant? with
      | some _, some _ => .error (.unsupported .twoConstants)
      | none, some value => scope.comparison mapping op left value
      | some value, none => scope.comparison mapping op.swap right value
      | none, none => .error (.unsupported (.noConstant left.kind right.kind)) := by
  cases right with
  | constant value => cases left <;> rfl
  | _ => cases left <;> rfl

/-- A call is told apart by the constant that it is a method of. -/
theorem condition_call (method : String) (target : Expr) (arguments : List Expr) :
    scope.condition mapping (.call method target arguments) =
      if method = "contains" then
        match target.constant?, arguments with
        | some (.array items), [member] => do
          let field ← scope.resolveExpr mapping member
          return .oneOf field.path (← constantForms items)
        | _, _ => .error (.unsupported (.containsOperands target.kind arguments.length))
      else .error (.unsupported (.unknownMethod method)) := by
  unfold condition
  cases target with
  | constant value =>
    cases value with
    | array items =>
      cases arguments with
      | nil => rfl
      | cons first rest => cases rest <;> rfl
    | _ => rfl
  | _ => rfl

theorem comparison_congr (alike : a.LooksLike b) (op : CompareOp) (value : Literal) :
    scope.comparison mapping op a value = scope.comparison mapping op b value := by
  rw [comparison, comparison, resolveExpr_congr alike]

theorem condition_compare_congr (op : CompareOp) {left right left' right' : Expr}
    (first : left.LooksLike left') (second : right.LooksLike right') :
    scope.condition mapping (.compare op left right) =
      scope.condition mapping (.compare op left' right') := by
  rw [condition_compare, condition_compare, first.constant, second.constant, first.kind,
    second.kind]
  simp only [comparison_congr first, comparison_congr second]

theorem condition_call_congr (method : String) {target target' : Expr}
    {arguments arguments' : List Expr} (alike : target.LooksLike target')
    (parts : List.Forall₂ Expr.LooksLike arguments arguments') :
    scope.condition mapping (.call method target arguments) =
      scope.condition mapping (.call method target' arguments') := by
  rw [condition_call, condition_call, alike.constant, alike.kind, parts.length_eq]
  cases target'.constant? with
  | none => rfl
  | some value =>
    cases value with
    | array items =>
      cases parts with
      | nil => rfl
      | cons first rest =>
        cases rest with
        | nil => simp only [resolveExpr_congr first]
        | cons _ _ => rfl
    | _ => rfl

theorem predicate_regrouped (flat : layout ≠ .nested) (same : a.Regrouped b) :
    Expr.SameUnder (scope.predicate mapping layout) a b := by
  induction same with
  | refl e => exact ⟨rfl, fun _ => rfl⟩
  | symm _ ih => exact ih.symm
  | trans _ _ first second => exact first.trans second
  | chain op a b c => exact (predicate_byOperands flat).chain op a b c
  | logical op _ _ first second => exact (predicate_byOperands flat).logical op first second
  | @not inner inner' body ih =>
    refine .of_alone rfl (by simp [Expr.kind]) ?_
    have alike := body.looksLike
    cases access : inner.isAccess with
    | false => rw [predicate_not access, predicate_not (alike.isAccess ▸ access), ih.alone]
    | true =>
      rw [predicate, predicate, condition_not_access access,
        condition_not_access (alike.isAccess ▸ access), resolveExpr_congr alike]
  | compare op first second _ _ =>
    refine .of_alone rfl (by simp [Expr.kind]) ?_
    rw [predicate, predicate, condition_compare_congr op first.looksLike second.looksLike]
  | member name below _ =>
    refine .of_alone rfl (by simp [Expr.kind]) ?_
    have alike := (below.member name).looksLike
    rw [predicate, predicate, condition, condition, resolveExpr_congr alike]
  | construct before after name _ _ => exact .of_alone rfl (by simp [Expr.kind]) rfl
  | target method arguments part _ =>
    refine .of_alone rfl (by simp [Expr.kind]) ?_
    rw [predicate, predicate, condition_call_congr method part.looksLike (List.forall₂_refl _)]
  | argument method target before after part _ =>
    refine .of_alone rfl (by simp [Expr.kind]) ?_
    have parts := List.rel_append (List.forall₂_refl before)
      (List.Forall₂.cons part.looksLike (List.forall₂_refl after))
    rw [predicate, predicate, condition_call_congr method (Std.Refl.refl target) parts]

/-! ## Projections -/

theorem projectionForm_byOperands (flat : layout ≠ .nested) :
    Expr.ByOperands (scope.projectionForm mapping layout) := by
  intro op
  refine ⟨fun forms => .obj [(op.operator, .arr forms)], fun left right => ?_⟩
  rw [projectionForm_logical, Expr.operandsIn_of_flat flat]

theorem projectionForm_call (method : String) (target : Expr) (arguments : List Expr) :
    scope.projectionForm mapping layout (.call method target arguments) =
      .error (.unsupported (.notComputable (.call method))) := by
  rw [projectionForm, computed]
  · rfl
  all_goals simp

theorem operandForm_congr (alike : a.LooksLike b)
    (same : scope.projectionForm mapping layout a = scope.projectionForm mapping layout b) :
    scope.operandForm mapping layout a = scope.operandForm mapping layout b := by
  cases constant : a.constant? with
  | some value =>
    have first := (Expr.constant?_eq_some_iff a value).mp constant
    have second := (Expr.constant?_eq_some_iff b value).mp (alike.constant ▸ constant)
    rw [first, second]
  | none =>
    have other {e : Expr} (none : e.constant? = none) (value : Literal) : e ≠ .constant value := by
      rintro rfl
      cases none
    rw [operandForm_of_other (other constant),
      operandForm_of_other (other (alike.constant ▸ constant)), same]

/-- A constructed member can be replaced by one that has the same form. -/
theorem memberForms_congr {named : List String} (before after : List (String × Expr))
    (name : String)
    (same : scope.projectionForm mapping layout a = scope.projectionForm mapping layout b) :
    scope.memberForms mapping layout named (before ++ (name, a) :: after) =
      scope.memberForms mapping layout named (before ++ (name, b) :: after) := by
  induction before generalizing named with
  | nil => rw [List.nil_append, List.nil_append, memberForms_cons, memberForms_cons, same]
  | cons first rest ih =>
    obtain ⟨key, value⟩ := first
    rw [List.cons_append, List.cons_append, memberForms_cons, memberForms_cons, ih]

theorem projectionForm_regrouped (flat : layout ≠ .nested) (same : a.Regrouped b) :
    Expr.SameUnder (scope.projectionForm mapping layout) a b := by
  induction same with
  | refl e => exact ⟨rfl, fun _ => rfl⟩
  | symm _ ih => exact ih.symm
  | trans _ _ first second => exact first.trans second
  | chain op a b c => exact (projectionForm_byOperands flat).chain op a b c
  | logical op _ _ first second => exact (projectionForm_byOperands flat).logical op first second
  | not _ ih =>
    refine .of_alone rfl (by simp [Expr.kind]) ?_
    rw [projectionForm_not, projectionForm_not, ih.alone]
  | compare op first second left right =>
    refine .of_alone rfl (by simp [Expr.kind]) ?_
    rw [projectionForm_compare, projectionForm_compare,
      operandForm_congr first.looksLike left.alone, operandForm_congr second.looksLike right.alone]
  | member name below _ =>
    refine .of_alone rfl (by simp [Expr.kind]) ?_
    have alike := (below.member name).looksLike
    rw [projectionForm, projectionForm, computed, computed, resolveExpr_congr alike]
  | construct before after name _ ih =>
    refine .of_alone rfl (by simp [Expr.kind]) ?_
    rw [projectionForm_construct, projectionForm_construct,
      memberForms_congr before after name ih.alone]
  | target method arguments _ _ =>
    refine .of_alone rfl (by simp [Expr.kind]) ?_
    rw [projectionForm_call, projectionForm_call]
  | argument method target before after _ _ =>
    refine .of_alone rfl (by simp [Expr.kind]) ?_
    rw [projectionForm_call, projectionForm_call]

end Scope
namespace Context

variable {context : Context}

/-- A construction is selected by the members of its form. -/
theorem selection_eq (e : Expr) :
    context.selection e =
      match e.kind with
      | .member _ => do
        let field ← context.scope.resolveExpr context.mapping e
        return [(field.path, .str (Sigil.mark field.path))]
      | .construction => do
        let form ← context.scope.projectionForm context.mapping context.config.flattening e
        return Json.membersOrEmpty (some form)
      | kind => .error (.unsupported (.notSelectable kind)) := by
  cases e with
  | construct members =>
    simp only [Expr.kind]
    rw [selection, Scope.projectionForm_construct, Scope.memberForms]
    cases context.scope.computedMembers context.mapping [] members <;> rfl
  | _ => rfl

theorem selectStage_regrouped (flat : context.config.flattening ≠ .nested) {a b : Expr}
    (same : a.Regrouped b) : context.selectStage a = context.selectStage b := by
  have chosen : context.selection a = context.selection b := by
    rw [selection_eq, selection_eq, same.looksLike.kind, Scope.resolveExpr_congr same.looksLike,
      (Scope.projectionForm_regrouped flat same).alone]
  rw [selectStage, selectStage, chosen]

end Context

/-- The grouping of chains does not matter in the flat and the merged layout: regrouped
predicates and projections are lowered to the same documents or refused with the same error,
and so are the stages that are made of them. -/
theorem lowering_regrouped (context : Context) (flat : context.config.flattening ≠ .nested)
    {a b : Expr} (same : a.Regrouped b) :
    context.scope.predicate context.mapping context.config.flattening a =
        context.scope.predicate context.mapping context.config.flattening b ∧
      context.scope.projectionForm context.mapping context.config.flattening a =
        context.scope.projectionForm context.mapping context.config.flattening b ∧
      context.filterStage a = context.filterStage b ∧
      context.selectStage a = context.selectStage b := by
  have predicates := (@Scope.predicate_regrouped context.mapping context.scope _ _ _ flat same).alone
  refine ⟨predicates, (Scope.projectionForm_regrouped flat same).alone, ?_,
    Context.selectStage_regrouped flat same⟩
  rw [Context.filterStage_eq_predicate, Context.filterStage_eq_predicate, predicates]

/-- Active, of age, and neither of a city nor under ten, grouped to the left. -/
def groupedLeft : Expr :=
  .logical .and
    (.logical .and (.field "Active") (.compare .gte (.field "Age") (.constant (.int 18))))
    (.not (.logical .or
      (.logical .or (.compare .eq (.field "Address.City") (.constant (.string "Ulm")))
        (.compare .eq (.field "Address.City") (.constant (.string "Bonn"))))
      (.compare .lt (.field "Age") (.constant (.int 10)))))

/-- The same, grouped to the right. -/
def groupedRight : Expr :=
  .logical .and (.field "Active")
    (.logical .and (.compare .gte (.field "Age") (.constant (.int 18)))
      (.not (.logical .or (.compare .eq (.field "Address.City") (.constant (.string "Ulm")))
        (.logical .or (.compare .eq (.field "Address.City") (.constant (.string "Bonn")))
          (.compare .lt (.field "Age") (.constant (.int 10)))))))

theorem lowering_regrouped_people :
    peopleMerged.config.flattening ≠ .nested ∧ groupedLeft.Regrouped groupedRight ∧
      peopleMerged.filterStage groupedLeft = peopleMerged.filterStage groupedRight ∧
      peopleMerged.filterStage groupedLeft = .ok ⟨"$match", .obj [("$and", .arr [
        .obj [("Active", .obj [("$eq", .bool true)])],
        .obj [("Age", .obj [("$gte", .num (.int 18))])],
        .obj [("$nor", .arr [.obj [("$or", .arr [
          .obj [("Address.place.city", .obj [("$eq", .str "Ulm")])],
          .obj [("Address.place.city", .obj [("$eq", .str "Bonn")])],
          .obj [("Age", .obj [("$lt", .num (.int 10))])]])]])]])]⟩ := by
  have flat : peopleMerged.config.flattening ≠ .nested := by decide
  have same : groupedLeft.Regrouped groupedRight :=
    .trans (.logical .and (.refl _) (.not (.chain .or _ _ _))) (.chain .and _ _ _)
  exact ⟨flat, same, (lowering_regrouped peopleMerged flat same).2.2.1, rfl⟩

end DocQuery
