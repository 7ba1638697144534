import DocQuery.Proofs.Condition.Leaves
import DocQuery.Proofs.Scope.Plain

/-!
# The shape of laid out predicates

`Scope.LaidOut` says which document each layout makes of a predicate: the nested one an array
for every two operands, the flat one an array for every chain, and the merged one a single
document for a chain of conjunctions whose operands are conditions on different fields.
`Context.filterStage_shape` shows that the stage of a filter is laid out so, with the conditions
of its leaves in order, and what follows for the arrays of its connectives.
-/
namespace DocQuery

namespace Scope

variable {mapping : FieldMapping} {scope : Scope} {layout : Flattening}

/-! ## Arrays -/

/-- The bodies in the array of a connective: those of the operands that the layout puts side by
side. -/
def ArrayOf (mapping : FieldMapping) (scope : Scope) (layout : Flattening) (op : LogicalOp)
    (items : List Json) : Prop :=
  ∃ left right bodies, scope.PlainLeaves mapping (.logical op left right) ∧
    (Expr.operandsIn layout op left right).mapM (scope.predicate mapping layout) = .ok bodies ∧
    items = bodies.map .obj

/-- Every array in a lowered predicate is the array of a connective. -/
theorem array_of_predicate (op : LogicalOp) (items : List Json) (e : Expr) (body : Members)
    (success : scope.predicate mapping layout e = .ok body)
    (plain : scope.PlainLeaves mapping e)
    (listed : (op.operator, .arr items) ∈ Match.entries body) :
    scope.ArrayOf mapping layout op items := by
  revert listed
  refine predicate_induction ?leaf ?negation ?connective e body success plain
  case leaf =>
    intro e condition stated single unmarked listed
    rw [Match.entries_field condition.2 unmarked, List.mem_singleton] at listed
    rw [← (Prod.mk.inj listed).1, op.marked_operator] at unmarked
    cases unmarked
  case negation =>
    intro inner body compound ih listed
    rw [Match.entries_negation, List.mem_cons] at listed
    rcases listed with same | listed
    · cases op <;> simp [LogicalOp.operator] at same
    · exact ih listed
  case connective =>
    intro inner left right bodies plain lowered each listed
    have below (within : (op.operator, .arr items) ∈ bodies.flatMap Match.entries) :
        scope.ArrayOf mapping layout op items := by
      obtain ⟨body, among, listed⟩ := List.mem_flatMap.mp within
      obtain ⟨operand, found⟩ := exists_of_forall₂ each among
      exact found listed
    rcases Condition.connective_cases layout inner bodies with ⟨array, -⟩ | ⟨-, -, merged, -⟩
    · obtain ⟨named, known⟩ := inner.ofName?_operator
      rw [array, Match.entries_connective known, List.mem_cons] at listed
      rcases listed with same | listed
      · obtain ⟨key, form⟩ := Prod.mk.inj same
        cases LogicalOp.operator_inj key
        cases form
        exact ⟨left, right, bodies, plain, lowered, rfl⟩
      · exact below listed
    · rw [merged, Match.entries_flatten] at listed
      exact below listed

theorem ArrayOf.length_of_nested {op : LogicalOp} {items : List Json}
    (array : scope.ArrayOf mapping .nested op items) : items.length = 2 := by
  obtain ⟨left, right, bodies, -, lowered, rfl⟩ := array
  rw [List.length_map, ← (forall₂_of_mapM lowered).length_eq]
  rfl

/-- The body of what is no chain of a connective has no array of that connective at its top. -/
theorem keys_of_other {op : LogicalOp} {e : Expr} {body : Members}
    (success : scope.predicate mapping layout e = .ok body)
    (plain : scope.PlainLeaves mapping e) (other : e.kind ≠ .connective op) :
    ∀ entry ∈ body, entry.1 ≠ op.operator := by
  intro entry listed key
  rcases predicate_success success with
    ⟨condition, stated, single, rfl⟩ | ⟨inner, inside, rfl, compound, lowered, rfl⟩ |
    ⟨inner, left, right, bodies, rfl, lowered, rfl⟩
  · have unmarked := plain.condition single stated
    rw [List.mem_singleton.mp listed] at key
    rw [key, op.marked_operator] at unmarked
    cases unmarked
  · rw [List.mem_singleton.mp listed] at key
    cases op <;> simp [LogicalOp.operator] at key
  · rcases Condition.connective_cases layout inner bodies with ⟨array, -⟩ | ⟨-, -, merged, made⟩
    · rw [array, List.mem_singleton] at listed
      rw [listed] at key
      cases LogicalOp.operator_inj key
      exact other rfl
    · rw [merged] at listed
      obtain ⟨-, unmarked, -⟩ := (mergeDisjoint?_eq_some_iff [] bodies _).mp made
      obtain ⟨unmarked, -⟩ := unmarked entry listed
      rw [key, op.marked_operator] at unmarked
      cases unmarked

theorem ArrayOf.keys_of_flat (flat : layout ≠ .nested) {op : LogicalOp} {items : List Json}
    (array : scope.ArrayOf mapping layout op items) {body : Members} (listed : .obj body ∈ items) :
    ∀ entry ∈ body, entry.1 ≠ op.operator := by
  obtain ⟨left, right, bodies, plain, lowered, rfl⟩ := array
  obtain ⟨same, among, equal⟩ := List.mem_map.mp listed
  cases equal
  obtain ⟨operand, within, success⟩ := exists_of_forall₂ (forall₂_of_mapM lowered) among
  refine keys_of_other success (plain.operand within) ?_
  rw [Expr.operandsIn_of_flat flat] at within
  exact Expr.kind_of_operand within

/-! ## Merged chains -/

/-- All operands state conditions on fields, and no path repeats. -/
def Mergeable (mapping : FieldMapping) (scope : Scope) (operands : List Expr) : Prop :=
  ∃ conditions, operands.map (scope.fieldCondition? mapping) = conditions.map some ∧
    Assoc.Distinct conditions

/-- The body of an operand is its condition, or an operator of an operand that is none. -/
def AsOperand (mapping : FieldMapping) (scope : Scope) (e : Expr) (body : Members) : Prop :=
  (∃ condition, scope.fieldCondition? mapping e = some condition ∧ body = [condition] ∧
    Sigil.isMarked condition.1 = false) ∨
  (scope.fieldCondition? mapping e = none ∧ ∃ entry ∈ body, Sigil.isMarked entry.1 = true)

theorem asOperand_of_predicate {e : Expr} {body : Members}
    (success : scope.predicate mapping layout e = .ok body)
    (plain : scope.PlainLeaves mapping e) (other : e.kind ≠ .connective .and) :
    scope.AsOperand mapping e body := by
  rcases predicate_success success with
    ⟨condition, stated, single, rfl⟩ | ⟨inner, inside, rfl, compound, lowered, rfl⟩ |
    ⟨op, left, right, bodies, rfl, lowered, rfl⟩
  · exact .inl ⟨condition, stated, rfl, plain.condition single stated⟩
  · have marked : Sigil.isMarked "$nor" = true := by decide
    refine .inr ⟨?_, _, List.mem_singleton.mpr rfl, marked⟩
    cases inner with
    | member target name => cases compound
    | _ => rfl
  · rcases Condition.connective_cases layout op bodies with ⟨array, -⟩ | ⟨-, rfl, -, -⟩
    · rw [array]
      exact .inr ⟨rfl, _, List.mem_singleton.mpr rfl, op.marked_operator⟩
    · exact absurd rfl other

/-- The members of the bodies are plain exactly if they are the conditions of the operands. -/
theorem flatten_eq_iff {operands : List Expr} {bodies : List Members}
    (each : List.Forall₂ (scope.AsOperand mapping) operands bodies) (conditions : Members) :
    (conditions = bodies.flatten ∧ ∀ entry ∈ bodies.flatten, Sigil.isMarked entry.1 = false) ↔
      operands.map (scope.fieldCondition? mapping) = conditions.map some := by
  induction each generalizing conditions with
  | nil => cases conditions <;> simp
  | @cons operand body operands bodies head tail ih =>
    rw [List.flatten_cons, List.map_cons]
    rcases head with ⟨condition, stated, rfl, unmarked⟩ | ⟨none, entry, listed, marked⟩
    · rw [stated, List.singleton_append, List.forall_mem_cons]
      cases conditions with
      | nil => simp
      | cons first rest =>
        rw [List.map_cons, List.cons.injEq, List.cons.injEq, ← ih rest, Option.some.injEq]
        simp only [unmarked, true_and, eq_comm, and_assoc]
    · -- An operand that states no condition has none to add, and an operator in its body.
      refine iff_of_false ?_ ?_
      · rintro ⟨-, unmarked⟩
        rw [unmarked entry (by simp [listed])] at marked
        cases marked
      · cases conditions <;> simp [none]

theorem mergeDisjoint?_operands {operands : List Expr} {bodies : List Members}
    (each : List.Forall₂ (scope.AsOperand mapping) operands bodies) (conditions : Members) :
    mergeDisjoint? [] bodies = some conditions ↔
      operands.map (scope.fieldCondition? mapping) = conditions.map some ∧
        Assoc.Distinct conditions := by
  rw [mergeDisjoint?_eq_some_iff, ← flatten_eq_iff each]
  simp only [Assoc.keys, List.map_nil, List.not_mem_nil, not_false_eq_true, and_true,
    List.nil_append]
  constructor
  · rintro ⟨rfl, unmarked, distinct⟩
    exact ⟨⟨rfl, unmarked⟩, distinct⟩
  · rintro ⟨⟨rfl, unmarked⟩, distinct⟩
    exact ⟨rfl, unmarked, distinct⟩

/-- The documents that a layout makes of a predicate. -/
inductive LaidOut (mapping : FieldMapping) (scope : Scope) (layout : Flattening) :
    Expr → Members → Prop where
  /-- A leaf is one condition on a field. -/
  | condition {e : Expr} {condition : String × Json}
      (stated : scope.fieldCondition? mapping e = some condition) :
      LaidOut mapping scope layout e [condition]
  /-- A negation, unless of a bare member, is put around its operand. -/
  | negation {inner : Expr} {body : Members} (compound : inner.isAccess = false)
      (inside : LaidOut mapping scope layout inner body) :
      LaidOut mapping scope layout (.not inner) [("$nor", .arr [.obj body])]
  /-- A connective is one array with a body for each operand, in order: for the two in the nested
  layout, for all of its chain in the others. -/
  | array {op : LogicalOp} {left right : Expr} {bodies : List Members}
      (apart : ¬ (layout = .merge ∧ op = .and ∧
        scope.Mergeable mapping (Expr.operandsIn layout op left right)))
      (each : List.Forall₂ (LaidOut mapping scope layout) (Expr.operandsIn layout op left right)
        bodies) :
      LaidOut mapping scope layout (.logical op left right)
        [(op.operator, .arr (bodies.map .obj))]
  /-- A chain of conjunctions is merged to the conditions of its operands. -/
  | merged {left right : Expr} {conditions : Members} (merges : layout = .merge)
      (stated : (Expr.operandsIn layout .and left right).map (scope.fieldCondition? mapping) =
        conditions.map some)
      (distinct : Assoc.Distinct conditions) :
      LaidOut mapping scope layout (.logical .and left right) conditions

theorem laidOut_of_predicate (e : Expr) (body : Members)
    (success : scope.predicate mapping layout e = .ok body)
    (plain : scope.PlainLeaves mapping e) : scope.LaidOut mapping layout e body := by
  refine predicate_induction ?leaf ?negation ?connective e body success plain
  case leaf =>
    intro e condition stated single unmarked
    exact .condition stated
  case negation =>
    intro inner body compound ih
    exact .negation compound ih
  case connective =>
    intro op left right bodies plain lowered each
    by_cases merging : layout = .merge ∧ op = .and
    · obtain ⟨rfl, rfl⟩ := merging
      have asOperands : List.Forall₂ (scope.AsOperand mapping)
          (Expr.operandsIn .merge .and left right) bodies :=
        (forall₂_of_mapM lowered).imp fun operand below ⟨listed, success⟩ =>
          asOperand_of_predicate success (plain.operand listed) (Expr.kind_of_operand listed)
      rcases Condition.connective_cases .merge .and bodies with ⟨array, apart⟩ | ⟨-, -, merged, made⟩
      · rw [array]
        refine .array ?_ each
        rintro ⟨-, -, conditions, stated, distinct⟩
        exact apart conditions rfl rfl ((mergeDisjoint?_operands asOperands _).mpr ⟨stated, distinct⟩)
      · rw [merged]
        obtain ⟨stated, distinct⟩ := (mergeDisjoint?_operands asOperands _).mp made
        exact .merged rfl stated distinct
    · rcases Condition.connective_cases layout op bodies with ⟨array, -⟩ | ⟨merges, conjunction, -⟩
      · rw [array]
        exact .array (fun all => merging ⟨all.1, all.2.1⟩) each
      · exact absurd ⟨merges, conjunction⟩ merging

/-- A conjunction is laid out as the document of its operands' conditions if these can be merged,
and only then. -/
theorem LaidOut.merged_iff {left right : Expr} {body : Members}
    (laidOut : scope.LaidOut mapping .merge (.logical .and left right) body) :
    body.map some =
        (Expr.operandsIn .merge .and left right).map (scope.fieldCondition? mapping) ↔
      scope.Mergeable mapping (Expr.operandsIn .merge .and left right) := by
  cases laidOut with
  | condition stated => cases stated
  | array apart each =>
    refine iff_of_false (fun single => apart ⟨rfl, rfl, _, single.symm, ?_⟩)
      fun mergeable => apart ⟨rfl, rfl, mergeable⟩
    exact List.pairwise_singleton _ _
  | merged merges stated distinct => exact iff_of_true stated.symm ⟨body, stated, distinct⟩

end Scope

namespace Context

/-- The stage of a filter has the documented shape. Its conditions on fields are those of the
leaves of the predicate, once each and in order. In the nested layout every array of a
connective has two bodies; in the others none of its bodies has that connective at its top. A
conjunction is merged exactly if all operands of its chain are conditions on different fields.
At every depth the stage is laid out as `Scope.LaidOut` says. -/
theorem filterStage_shape (context : Context) (e : Expr) (body : Members)
    (accepted : context.filterStage e = .ok ⟨"$match", .obj body⟩)
    (plain : context.scope.PlainPaths context.mapping e) :
    (Match.fieldConditions body).map some =
        e.fieldLeaves.map (context.scope.fieldCondition? context.mapping) ∧
      (context.config.flattening = .nested → ∀ (op : LogicalOp) (items : List Json),
        (op.operator, .arr items) ∈ Match.entries body → items.length = 2) ∧
      (context.config.flattening ≠ .nested → ∀ (op : LogicalOp) (items : List Json),
        (op.operator, .arr items) ∈ Match.entries body → ∀ members, .obj members ∈ items →
          ∀ entry ∈ members, entry.1 ≠ op.operator) ∧
      (context.config.flattening = .merge → ∀ left right, e = .logical .and left right →
        (body.map some =
            (e.operands .and).map (context.scope.fieldCondition? context.mapping) ↔
          context.scope.Mergeable context.mapping (e.operands .and))) ∧
      context.scope.LaidOut context.mapping context.config.flattening e body := by
  rw [filterStage_eq_predicate] at accepted
  obtain ⟨lowered, success, same⟩ := map_success accepted
  cases same
  have leaves := plain.leaves
  have laidOut := Scope.laidOut_of_predicate e body success leaves
  refine ⟨Scope.fieldConditions_of_predicate e body success leaves, ?_, ?_, ?_, laidOut⟩
  · intro nested op items listed
    rw [nested] at success
    exact (Scope.array_of_predicate op items e body success leaves listed).length_of_nested
  · intro flat op items listed members within
    exact (Scope.array_of_predicate op items e body success leaves listed).keys_of_flat flat within
  · rintro merges left right rfl
    rw [merges] at laidOut
    exact laidOut.merged_iff

/-- Adults somewhere are asked for by one document, since its three fields differ. -/
theorem filterStage_shape_adults :
    peopleMerged.filterStage adultsSomewhere = .ok ⟨"$match", .obj adultsBody⟩ ∧
      peopleMerged.scope.PlainPaths people adultsSomewhere ∧
      (Match.fieldConditions adultsBody).map some =
        adultsSomewhere.fieldLeaves.map (peopleMerged.scope.fieldCondition? people) ∧
      peopleMerged.scope.Mergeable people (adultsSomewhere.operands .and) := by
  have accepted : peopleMerged.filterStage adultsSomewhere = .ok ⟨"$match", .obj adultsBody⟩ := rfl
  have plain := peopleMerged_plainPaths adultsSomewhere
  obtain ⟨conditions, -, -, merged, -⟩ :=
    filterStage_shape peopleMerged adultsSomewhere adultsBody accepted plain
  exact ⟨accepted, plain, conditions, (merged rfl _ _ rfl).mp rfl⟩

end Context
end DocQuery
