import DocQuery.Proofs.Condition.OnePass
import Mathlib.Data.List.Forall2

/-!
# The conditions of a predicate

The leaves of a predicate state conditions on fields. Layouts put connectives around them in
different ways, and merging puts several of them into one document, but no condition is lost,
repeated or moved on the way: `fieldConditions_of_predicate` shows that reading the conditions
off a lowered document, at any depth, gives those of the leaves. The induction that carries this
follows the operands as the layout puts them side by side (`predicate_induction`).
-/
namespace DocQuery

namespace Match

mutual

/-- All entries of a body, each before those in the bodies of its connective. -/
def entries : List (String × Json) → List (String × Json)
  | [] => []
  | (key, condition) :: rest => (key, condition) :: (entriesBelow key condition ++ entries rest)

/-- The entries in the bodies of a connective. -/
def entriesBelow (key : String) : Json → List (String × Json)
  | .arr operands => if (Connective.ofName? key).isSome then entriesOfBodies operands else []
  | _ => []

/-- The entries of several bodies. -/
def entriesOfBodies : List Json → List (String × Json)
  | [] => []
  | .obj body :: rest => entries body ++ entriesOfBodies rest
  | _ :: rest => entriesOfBodies rest

end

/-- The conditions on fields in a body, at any depth, from left to right. -/
def fieldConditions (body : Members) : List (String × Json) :=
  (entries body).filter fun entry => (Connective.ofName? entry.1).isNone

theorem entries_cons (key : String) (condition : Json) (rest : Members) :
    entries ((key, condition) :: rest) =
      (key, condition) :: (entriesBelow key condition ++ entries rest) :=
  rfl

theorem entries_append (first second : Members) :
    entries (first ++ second) = entries first ++ entries second := by
  induction first with
  | nil => rfl
  | cons entry rest ih =>
    obtain ⟨key, condition⟩ := entry
    rw [List.cons_append, entries_cons, entries_cons, ih, List.cons_append, List.append_assoc]

theorem entries_flatten (bodies : List Members) :
    entries bodies.flatten = bodies.flatMap entries := by
  induction bodies with
  | nil => rfl
  | cons body rest ih => rw [List.flatten_cons, entries_append, ih, List.flatMap_cons]

theorem entriesOfBodies_map_obj (bodies : List Members) :
    entriesOfBodies (bodies.map .obj) = bodies.flatMap entries := by
  induction bodies with
  | nil => rfl
  | cons body rest ih => rw [List.map_cons, entriesOfBodies, ih, List.flatMap_cons]

theorem entries_field {path : String} (condition : Json) (plain : Sigil.isMarked path = false) :
    entries [(path, condition)] = [(path, condition)] := by
  have nothing : entriesBelow path condition = [] := by
    cases condition <;> simp [entriesBelow, ofName?_of_unmarked plain]
  rw [entries_cons, nothing]
  rfl

theorem entries_connective {key : String} {connective : Connective}
    (named : Connective.ofName? key = some connective) (bodies : List Members) :
    entries [(key, .arr (bodies.map .obj))] =
      (key, .arr (bodies.map .obj)) :: bodies.flatMap entries := by
  rw [entries_cons, entriesBelow, named, entriesOfBodies_map_obj]
  exact congrArg (List.cons _) (List.append_nil _)

theorem fieldConditions_connective {key : String} {connective : Connective}
    (named : Connective.ofName? key = some connective) (bodies : List Members) :
    fieldConditions [(key, .arr (bodies.map .obj))] = bodies.flatMap fieldConditions := by
  unfold fieldConditions
  rw [entries_connective named, List.filter_cons_of_neg (by simp [named]), List.filter_flatMap]

theorem entries_negation (body : Members) :
    entries [("$nor", .arr [.obj body])] = ("$nor", .arr [.obj body]) :: entries body := by
  have named : Connective.ofName? "$nor" = some .nor := by decide
  have single := entries_connective named [body]
  rwa [List.map_singleton, List.flatMap_singleton] at single

theorem fieldConditions_negation (body : Members) :
    fieldConditions [("$nor", .arr [.obj body])] = fieldConditions body := by
  have named : Connective.ofName? "$nor" = some .nor := by decide
  have single := fieldConditions_connective named [body]
  rwa [List.map_singleton, List.flatMap_singleton] at single

theorem fieldConditions_field {path : String} (condition : Json)
    (plain : Sigil.isMarked path = false) :
    fieldConditions [(path, condition)] = [(path, condition)] := by
  unfold fieldConditions
  rw [entries_field condition plain]
  simp [ofName?_of_unmarked plain]

end Match

theorem LogicalOp.ofName?_operator (op : LogicalOp) :
    ∃ connective, Match.Connective.ofName? op.operator = some connective := by
  cases op with
  | and => exact ⟨.and, by decide⟩
  | or => exact ⟨.or, by decide⟩

theorem LogicalOp.operator_inj {op other : LogicalOp} (same : op.operator = other.operator) :
    op = other := by
  revert same
  cases op <;> cases other <;> decide

namespace Condition

/-- A laid out connective is one array, or one document that its operands merge to. -/
theorem connective_cases (layout : Flattening) (op : LogicalOp) (bodies : List Members) :
    (connective layout op bodies = [(op.operator, .arr (bodies.map .obj))] ∧
      ∀ merged, layout = .merge → op = .and → mergeDisjoint? [] bodies ≠ some merged) ∨
    (layout = .merge ∧ op = .and ∧ connective layout op bodies = bodies.flatten ∧
      mergeDisjoint? [] bodies = some bodies.flatten) := by
  by_cases merging : layout = .merge ∧ op = .and
  · obtain ⟨rfl, rfl⟩ := merging
    cases made : mergeDisjoint? [] bodies with
    | none => exact .inl ⟨by rw [connective, made]; rfl, by simp⟩
    | some merged =>
      obtain rfl := mergeDisjoint?_success made
      exact .inr ⟨rfl, rfl, by rw [connective, made]; rfl, rfl⟩
  · refine .inl ⟨?_, fun merged merges conjunction => absurd ⟨merges, conjunction⟩ merging⟩
    cases layout <;> cases op <;> first | rfl | exact absurd ⟨rfl, rfl⟩ merging

/-- Whatever a connective is laid out as, it has the field conditions of its operands. -/
theorem fieldConditions_connective (layout : Flattening) (op : LogicalOp)
    (bodies : List Members) :
    Match.fieldConditions (connective layout op bodies) =
      bodies.flatMap Match.fieldConditions := by
  rcases connective_cases layout op bodies with ⟨array, -⟩ | ⟨-, -, merged, -⟩
  · obtain ⟨named, known⟩ := op.ofName?_operator
    rw [array, Match.fieldConditions_connective known]
  · rw [merged, Match.fieldConditions, Match.entries_flatten, List.filter_flatMap]
    rfl

end Condition

namespace Expr

/-- The parts of a predicate between its connectives and negations, from left to right; a
negated member access is a part itself. -/
def fieldLeaves : Expr → List Expr
  | .logical _ left right => left.fieldLeaves ++ right.fieldLeaves
  | .not inner => if inner.isAccess then [.not inner] else inner.fieldLeaves
  | e => [e]

theorem fieldLeaves_logical (op : LogicalOp) (left right : Expr) :
    (logical op left right).fieldLeaves = left.fieldLeaves ++ right.fieldLeaves :=
  rfl

theorem fieldLeaves_operands (op : LogicalOp) (e : Expr) :
    (e.operands op).flatMap fieldLeaves = e.fieldLeaves := by
  induction e using chain_induction op with
  | chain left right ihLeft ihRight =>
    rw [operands_chain, List.flatMap_append, ihLeft, ihRight, fieldLeaves_logical]
  | alone e other => rw [operands_of_other other, List.flatMap_singleton]

/-- Every layout puts the leaves of a connective side by side. -/
theorem fieldLeaves_operandsIn (layout : Flattening) (op : LogicalOp) (left right : Expr) :
    (operandsIn layout op left right).flatMap fieldLeaves = (logical op left right).fieldLeaves := by
  cases layout with
  | nested => simp [operandsIn, fieldLeaves_logical]
  | flatten | merge => exact fieldLeaves_operands op _

end Expr

/-- An array of items that have forms has the array of these. -/
theorem Literal.documents?_of_map {items : List Literal} {forms : List Json}
    (formed : items.map document? = forms.map some) : documents? items = some forms := by
  induction items generalizing forms with
  | nil =>
    cases forms with
    | nil => rfl
    | cons form rest => cases formed
  | cons item rest ih =>
    cases forms with
    | nil => cases formed
    | cons form others =>
      obtain ⟨first, tail⟩ := List.cons.inj formed
      rw [documents?, first, ih tail]

/-- Items that are lowered in a row are each lowered to the result beside it. -/
theorem forall₂_of_mapM {ε α β : Type} {lower : α → Except ε β} {items : List α}
    {results : List β} (success : items.mapM lower = .ok results) :
    List.Forall₂ (fun item result => item ∈ items ∧ lower item = .ok result) items results := by
  refine (List.forall₂_and_left _ _).mpr ⟨fun _ listed => listed, ?_⟩
  induction items generalizing results with
  | nil =>
    cases success
    exact .nil
  | cons item rest ih =>
    rw [List.mapM_cons] at success
    obtain ⟨result, first, success⟩ := bind_success success
    obtain ⟨others, tail, success⟩ := bind_success success
    cases success
    exact .cons first (ih tail)

theorem exists_of_forall₂ {α β : Type} {related : α → β → Prop} {items : List α}
    {results : List β} (each : List.Forall₂ related items results) {result : β}
    (listed : result ∈ results) : ∃ item, related item result := by
  induction each with
  | nil => cases listed
  | @cons item first items results head tail ih =>
    rcases List.mem_cons.mp listed with rfl | listed
    · exact ⟨item, head⟩
    · exact ih listed

namespace Scope

variable (mapping : FieldMapping) (scope : Scope)

/-- The condition that an operator with an operand states on the field of a member. -/
def conditionOn (member : Expr) (operator : String) (operand : Option Json) :
    Option (String × Json) := do
  let field ← (scope.resolveExpr mapping member).toOption
  return (field.path, .obj [(operator, ← operand)])

/-- The condition on a field that a leaf states. -/
def fieldCondition? : Expr → Option (String × Json)
  | .compare op member (.constant value) =>
    scope.conditionOn mapping member op.operator value.document?
  | .compare op (.constant value) member =>
    scope.conditionOn mapping member op.swap.operator value.document?
  | .not (.member target name) =>
    scope.conditionOn mapping (.member target name) "$ne" (some (.bool true))
  | .member target name =>
    scope.conditionOn mapping (.member target name) "$eq" (some (.bool true))
  | .call "contains" (.constant (.array items)) [member] =>
    scope.conditionOn mapping member "$in" (Literal.array items).document?
  | _ => none

variable {mapping scope} {layout : Flattening}

theorem conditionOn_of_resolved {member : Expr} {field : ResolvedField}
    (resolved : scope.resolveExpr mapping member = .ok field) (operator : String) (form : Json) :
    scope.conditionOn mapping member operator (some form) =
      some (field.path, .obj [(operator, form)]) := by
  rw [conditionOn, resolved]
  rfl

theorem conditionOn_success {member : Expr} {operator : String} {operand : Option Json}
    {condition : String × Json}
    (stated : scope.conditionOn mapping member operator operand = some condition) :
    ∃ field, scope.resolveExpr mapping member = .ok field ∧ condition.1 = field.path := by
  rw [conditionOn] at stated
  cases resolved : scope.resolveExpr mapping member with
  | error error =>
    rw [resolved] at stated
    cases stated
  | ok field =>
    rw [resolved] at stated
    cases operand with
    | none => cases stated
    | some form =>
      cases stated
      exact ⟨field, rfl, rfl⟩

/-- A lowered predicate is one condition, a negation, or a connective over lowered operands. -/
theorem predicate_success {e : Expr} {body : Members}
    (success : scope.predicate mapping layout e = .ok body) :
    (∃ condition, scope.fieldCondition? mapping e = some condition ∧ e.fieldLeaves = [e] ∧
      body = [condition]) ∨
    (∃ inner inside, e = .not inner ∧ inner.isAccess = false ∧
      scope.predicate mapping layout inner = .ok inside ∧ body = [("$nor", .arr [.obj inside])]) ∨
    (∃ op left right bodies, e = .logical op left right ∧
      (Expr.operandsIn layout op left right).mapM (scope.predicate mapping layout) = .ok bodies ∧
      body = Condition.connective layout op bodies) := by
  cases e with
  | logical op left right =>
    rw [predicate_logical] at success
    obtain ⟨bodies, lowered, rfl⟩ := map_success success
    exact .inr (.inr ⟨op, left, right, bodies, rfl, lowered, rfl⟩)
  | compare op left right =>
    obtain ⟨c, accepted, rfl⟩ := map_success success
    rcases condition_compare_success accepted with ⟨value, rfl, compared⟩ | ⟨value, rfl, compared⟩
    · obtain ⟨field, form, resolved, formed, rfl⟩ := comparison_success compared
      refine .inl ⟨_, ?_, rfl, rfl⟩
      rw [fieldCondition?, formed, conditionOn_of_resolved resolved]
    · obtain ⟨field, form, resolved, formed, rfl⟩ := comparison_success compared
      obtain ⟨target, name, rfl⟩ := resolveExpr_success resolved
      refine .inl ⟨_, ?_, rfl, rfl⟩
      rw [fieldCondition?, formed, conditionOn_of_resolved resolved]
      simp
  | not inner =>
    cases access : inner.isAccess with
    | true =>
      cases inner with
      | member target name =>
        obtain ⟨c, accepted, rfl⟩ := map_success success
        obtain ⟨field, resolved, accepted⟩ := bind_success accepted
        cases accepted
        exact .inl ⟨_, conditionOn_of_resolved resolved "$ne" (.bool true), rfl, rfl⟩
      | _ => cases access
    | false =>
      rw [predicate_not access] at success
      obtain ⟨inside, lowered, rfl⟩ := map_success success
      exact .inr (.inl ⟨inner, inside, rfl, access, lowered, rfl⟩)
  | member target name =>
    obtain ⟨c, accepted, rfl⟩ := map_success success
    obtain ⟨field, resolved, rfl⟩ := condition_member_success accepted
    exact .inl ⟨_, conditionOn_of_resolved resolved "$eq" (.bool true), rfl, rfl⟩
  | call method target arguments =>
    obtain ⟨c, accepted, rfl⟩ := map_success success
    obtain ⟨items, member, field, forms, rfl, rfl, rfl, resolved, formed, rfl⟩ :=
      condition_call_success accepted
    refine .inl ⟨_, ?_, rfl, rfl⟩
    rw [fieldCondition?, Literal.document?, Literal.documents?_of_map formed]
    exact conditionOn_of_resolved resolved "$in" (.arr forms)
  | _ => cases success

/-! ## Plain paths -/

/-- No condition that a leaf states is on a path that begins with a dollar sign. -/
def PlainLeaves (mapping : FieldMapping) (scope : Scope) (e : Expr) : Prop :=
  ∀ leaf ∈ e.fieldLeaves, ∀ condition, scope.fieldCondition? mapping leaf = some condition →
    Sigil.isMarked condition.1 = false

theorem PlainLeaves.operand {op : LogicalOp} {left right operand : Expr}
    (plain : scope.PlainLeaves mapping (.logical op left right))
    (listed : operand ∈ Expr.operandsIn layout op left right) :
    scope.PlainLeaves mapping operand := by
  intro leaf within
  refine plain leaf ?_
  rw [← Expr.fieldLeaves_operandsIn layout]
  exact List.mem_flatMap.mpr ⟨operand, listed, within⟩

theorem PlainLeaves.negated {inner : Expr} (compound : inner.isAccess = false)
    (plain : scope.PlainLeaves mapping (.not inner)) : scope.PlainLeaves mapping inner := by
  simpa [PlainLeaves, Expr.fieldLeaves, compound] using plain

theorem PlainLeaves.condition {e : Expr} {condition : String × Json}
    (plain : scope.PlainLeaves mapping e) (single : e.fieldLeaves = [e])
    (stated : scope.fieldCondition? mapping e = some condition) :
    Sigil.isMarked condition.1 = false :=
  plain e (by simp [single]) condition stated

/-- A condition of a leaf is on the path of one of its members. -/
theorem path_of_fieldCondition {leaf : Expr} {condition : String × Json}
    (stated : scope.fieldCondition? mapping leaf = some condition) :
    ∃ access ∈ leaf.accesses, ∃ field, scope.resolveExpr mapping access = .ok field ∧
      condition.1 = field.path := by
  have within {member : Expr} {operator : String} {operand : Option Json}
      (stated : scope.conditionOn mapping member operator operand = some condition) :
      ∃ field, member ∈ member.accesses ∧ scope.resolveExpr mapping member = .ok field ∧
        condition.1 = field.path := by
    obtain ⟨field, resolved, path⟩ := conditionOn_success stated
    obtain ⟨target, name, rfl⟩ := resolveExpr_success resolved
    exact ⟨field, List.mem_singleton.mpr rfl, resolved, path⟩
  unfold fieldCondition? at stated
  split at stated
  -- The last case is that of the expressions that state no condition.
  case h_6 => cases stated
  all_goals
    obtain ⟨field, own, resolved, path⟩ := within stated
    refine ⟨_, ?_, field, resolved, path⟩
    simp [Expr.accesses, Expr.accessesOfItems, own]

theorem accesses_of_fieldLeaves : ∀ {e leaf : Expr}, leaf ∈ e.fieldLeaves →
    ∀ access ∈ leaf.accesses, access ∈ e.accesses
  | .logical _ left right, leaf, listed, access, within => by
    rw [Expr.accesses, List.mem_append]
    exact (List.mem_append.mp listed).imp
      (fun listed => accesses_of_fieldLeaves listed access within)
      fun listed => accesses_of_fieldLeaves listed access within
  | .not inner, leaf, listed, access, within => by
    rw [Expr.accesses]
    rw [Expr.fieldLeaves] at listed
    split at listed
    · rw [List.mem_singleton.mp listed] at within
      exact within
    · exact accesses_of_fieldLeaves listed access within
  | .parameter, _, listed, _, within | .member _ _, _, listed, _, within
  | .constant _, _, listed, _, within | .compare _ _ _, _, listed, _, within
  | .construct _, _, listed, _, within | .call _ _ _, _, listed, _, within =>
    List.mem_singleton.mp listed ▸ within

theorem PlainPaths.leaves {e : Expr} (plain : scope.PlainPaths mapping e) :
    scope.PlainLeaves mapping e := by
  intro leaf listed condition stated
  obtain ⟨access, within, field, resolved, path⟩ := path_of_fieldCondition stated
  rw [path]
  exact plain access (accesses_of_fieldLeaves listed access within) field resolved

/-! ## The conditions in a lowered document -/

/-- Induction over lowered predicates whose paths are plain; the operands of a connective are
those that the layout puts side by side. -/
@[elab_as_elim]
theorem predicate_induction {motive : Expr → Members → Prop}
    (leaf : ∀ e condition, scope.fieldCondition? mapping e = some condition →
      e.fieldLeaves = [e] → Sigil.isMarked condition.1 = false → motive e [condition])
    (negation : ∀ inner body, inner.isAccess = false → motive inner body →
      motive (.not inner) [("$nor", .arr [.obj body])])
    (connective : ∀ op left right bodies, scope.PlainLeaves mapping (.logical op left right) →
      (Expr.operandsIn layout op left right).mapM (scope.predicate mapping layout) = .ok bodies →
      List.Forall₂ motive (Expr.operandsIn layout op left right) bodies →
      motive (.logical op left right) (Condition.connective layout op bodies))
    (e : Expr) (body : Members) (success : scope.predicate mapping layout e = .ok body)
    (plain : scope.PlainLeaves mapping e) : motive e body := by
  -- The operands of a chain are no immediate parts of it, but they are smaller.
  induction size : sizeOf e using Nat.strongRecOn generalizing e body with
  | ind bound ih =>
    subst size
    rcases predicate_success success with
      ⟨condition, stated, single, rfl⟩ | ⟨inner, inside, rfl, compound, lowered, rfl⟩ |
      ⟨op, left, right, bodies, rfl, lowered, rfl⟩
    · exact leaf e condition stated single (plain.condition single stated)
    · exact negation inner inside compound
        (ih _ (by simp) inner inside lowered (plain.negated compound) rfl)
    · refine connective op left right bodies plain lowered ?_
      refine (forall₂_of_mapM lowered).imp fun operand below ⟨listed, success⟩ => ?_
      exact ih _ (Expr.sizeOf_operandsIn listed) operand below success (plain.operand listed) rfl

theorem fieldConditions_of_operands {operands : List Expr} {bodies : List Members}
    (each : List.Forall₂ (fun e body => (Match.fieldConditions body).map some =
      e.fieldLeaves.map (scope.fieldCondition? mapping)) operands bodies) :
    (bodies.flatMap Match.fieldConditions).map some =
      (operands.flatMap Expr.fieldLeaves).map (scope.fieldCondition? mapping) := by
  induction each with
  | nil => rfl
  | cons head tail ih =>
    rw [List.flatMap_cons, List.flatMap_cons, List.map_append, List.map_append, head, ih]

/-- A lowered predicate has the conditions of its leaves, once each and in order. -/
theorem fieldConditions_of_predicate (e : Expr) (body : Members)
    (success : scope.predicate mapping layout e = .ok body)
    (plain : scope.PlainLeaves mapping e) :
    (Match.fieldConditions body).map some = e.fieldLeaves.map (scope.fieldCondition? mapping) := by
  refine predicate_induction ?leaf ?negation ?connective e body success plain
  case leaf =>
    intro e condition stated single unmarked
    rw [Match.fieldConditions_field condition.2 unmarked, single, List.map_singleton,
      List.map_singleton, stated]
  case negation =>
    intro inner body compound ih
    rw [Match.fieldConditions_negation, ih, Expr.fieldLeaves, compound]
    rfl
  case connective =>
    intro op left right bodies _ _ each
    rw [Condition.fieldConditions_connective, fieldConditions_of_operands each,
      Expr.fieldLeaves_operandsIn]

end Scope
end DocQuery
