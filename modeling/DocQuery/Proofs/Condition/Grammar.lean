import DocQuery.Proofs.Condition.Meaning
import DocQuery.Proofs.Expr.Operands

/-!
# The grammar of predicates

`Scope.Accepts` is the least set of expressions that make a condition: comparisons of a
member with a constant, bare members, lists of constants that are asked for a member, and
what connectives and negations make of these. `filterStage_grammar` shows that exactly they
are lowered, whatever the layout of connectives is, and that another expression is refused
for its leftmost part that is not in the set.
-/
namespace DocQuery

namespace Scope

variable {mapping : FieldMapping} {scope : Scope}

/-- The expressions that make a condition. -/
inductive Accepts (mapping : FieldMapping) (scope : Scope) : Expr → Prop where
  | access {e : Expr} (resolves : scope.Resolves mapping e) : Accepts mapping scope e
  | constantRight {op : CompareOp} {member : Expr} {value : Literal}
      (resolves : scope.Resolves mapping member) (finite : value.Finite) :
      Accepts mapping scope (.compare op member (.constant value))
  | constantLeft {op : CompareOp} {member : Expr} {value : Literal}
      (resolves : scope.Resolves mapping member) (finite : value.Finite) :
      Accepts mapping scope (.compare op (.constant value) member)
  | contains {items : List Literal} {member : Expr} (resolves : scope.Resolves mapping member)
      (finite : (Literal.array items).Finite) :
      Accepts mapping scope (.call "contains" (.constant (.array items)) [member])
  | logical {op : LogicalOp} {left right : Expr} (first : Accepts mapping scope left)
      (second : Accepts mapping scope right) : Accepts mapping scope (.logical op left right)
  | not {inner : Expr} (body : Accepts mapping scope inner) : Accepts mapping scope (.not inner)

/-! ## Acceptance -/

theorem comparison_succeeds_iff (op : CompareOp) (member : Expr) (value : Literal) :
    (∃ c, scope.comparison mapping op member value = .ok c) ↔
      scope.Resolves mapping member ∧ value.Finite := by
  rw [comparison, bind_succeeds_iff, resolves_iff, ← constantForm_succeeds_iff]
  constructor
  · rintro ⟨field, resolved, c, success⟩
    obtain ⟨form, formed, -⟩ := bind_success success
    exact ⟨⟨field, resolved⟩, form, formed⟩
  · rintro ⟨⟨field, resolved⟩, form, formed⟩
    exact ⟨field, resolved, bind_succeeds_iff.mpr ⟨form, formed, _, rfl⟩⟩

/-- A predicate with a condition is in the grammar. -/
theorem accepts_of_condition : ∀ (e : Expr) (c : Condition), scope.condition mapping e = .ok c →
    scope.Accepts mapping e
  | .member target name, c, success => by
    obtain ⟨field, resolved, -⟩ := condition_member_success success
    exact .access (resolves_iff.mpr ⟨field, resolved⟩)
  | .compare op left right, c, success => by
    rcases condition_compare_success success with ⟨value, rfl, compared⟩ | ⟨value, rfl, compared⟩
    · obtain ⟨resolves, finite⟩ := (comparison_succeeds_iff op left value).mp ⟨c, compared⟩
      exact .constantRight resolves finite
    · obtain ⟨resolves, finite⟩ := (comparison_succeeds_iff op.swap right value).mp ⟨c, compared⟩
      exact .constantLeft resolves finite
  | .logical op left right, c, success => by
    obtain ⟨first, second, leftOk, rightOk, -⟩ := condition_logical_success success
    exact .logical (accepts_of_condition left first leftOk) (accepts_of_condition right second rightOk)
  | .not inner, c, success => by
    rcases condition_not_success success with ⟨target, name, field, rfl, resolved, -⟩ | ⟨body, innerOk, -⟩
    · exact .not (.access (resolves_iff.mpr ⟨field, resolved⟩))
    · exact .not (accepts_of_condition inner body innerOk)
  | .call method target arguments, c, success => by
    obtain ⟨items, member, field, forms, rfl, rfl, rfl, resolved, formed, -⟩ :=
      condition_call_success success
    refine .contains (resolves_iff.mpr ⟨field, resolved⟩) ?_
    rw [Literal.finite_array]
    intro item listed
    have form : item.document? ∈ items.map Literal.document? := List.mem_map_of_mem listed
    rw [formed] at form
    obtain ⟨json, -, same⟩ := List.mem_map.mp form
    rw [← Literal.isSome_document?, ← same]
    rfl
  | .parameter, _, success | .constant _, _, success | .construct _, _, success => by
    cases success

/-- The condition of a predicate under a negation, if it is no bare member. -/
theorem condition_not {inner : Expr} (compound : inner.isAccess = false) :
    scope.condition mapping (.not inner) = do
      return .not (← scope.condition mapping inner) := by
  cases inner with
  | member target name => cases compound
  | _ => rfl

/-- Every predicate of the grammar has a condition. -/
theorem condition_of_accepts {e : Expr} (accepts : scope.Accepts mapping e) :
    ∃ c, scope.condition mapping e = .ok c := by
  induction accepts with
  | access resolves =>
    obtain ⟨target, name, rfl⟩ := resolves.member
    obtain ⟨field, resolved⟩ := resolves_iff.mp resolves
    exact bind_succeeds_iff.mpr ⟨field, resolved, _, rfl⟩
  | @constantRight op member value resolves finite =>
    obtain ⟨c, compared⟩ := (comparison_succeeds_iff op member value).mpr ⟨resolves, finite⟩
    obtain ⟨target, name, rfl⟩ := resolves.member
    exact ⟨c, compared⟩
  | @constantLeft op member value resolves finite =>
    obtain ⟨c, compared⟩ := (comparison_succeeds_iff op.swap member value).mpr ⟨resolves, finite⟩
    obtain ⟨target, name, rfl⟩ := resolves.member
    exact ⟨c, compared⟩
  | @contains items member resolves finite =>
    obtain ⟨field, resolved⟩ := resolves_iff.mp resolves
    obtain ⟨forms, formed⟩ :=
      (constantForms_succeeds_iff items).mpr ((Literal.finite_array items).mp finite)
    exact bind_succeeds_iff.mpr ⟨field, resolved, bind_succeeds_iff.mpr ⟨forms, formed, _, rfl⟩⟩
  | logical _ _ first second =>
    obtain ⟨left, leftOk⟩ := first
    obtain ⟨right, rightOk⟩ := second
    exact bind_succeeds_iff.mpr ⟨left, leftOk, bind_succeeds_iff.mpr ⟨right, rightOk, _, rfl⟩⟩
  | @not inner _ body =>
    obtain ⟨c, innerOk⟩ := body
    cases compound : inner.isAccess with
    | false =>
      rw [condition_not compound]
      exact bind_succeeds_iff.mpr ⟨c, innerOk, _, rfl⟩
    | true =>
      cases inner with
      | member target name =>
        obtain ⟨field, resolved, -⟩ := condition_member_success innerOk
        exact bind_succeeds_iff.mpr ⟨field, resolved, _, rfl⟩
      | _ => cases compound

theorem accepts_iff (e : Expr) :
    scope.Accepts mapping e ↔ ∃ c, scope.condition mapping e = .ok c :=
  ⟨condition_of_accepts, fun ⟨c, success⟩ => accepts_of_condition e c success⟩

end Scope

/-! ## Refusal -/

/-- The parts of a predicate between its connectives and negations, from left to right. -/
def Expr.leaves : Expr → List Expr
  | .logical _ left right => left.leaves ++ right.leaves
  | .not inner => inner.leaves
  | e => [e]

namespace Scope

variable {mapping : FieldMapping} {scope : Scope}

/-- A predicate is in the grammar if its leaves are. -/
theorem accepts_iff_leaves : ∀ e : Expr,
    scope.Accepts mapping e ↔ ∀ leaf ∈ e.leaves, scope.Accepts mapping leaf
  | .logical op left right => by
    rw [Expr.leaves, List.forall_mem_append, ← accepts_iff_leaves left, ← accepts_iff_leaves right]
    constructor
    · rintro (resolves | _ | _ | _ | ⟨first, second⟩ | _)
      · obtain ⟨target, name, other⟩ := resolves.member
        cases other
      · exact ⟨first, second⟩
    · rintro ⟨first, second⟩
      exact .logical first second
  | .not inner => by
    rw [Expr.leaves, ← accepts_iff_leaves inner]
    constructor
    · rintro (resolves | _ | _ | _ | _ | body)
      · obtain ⟨target, name, other⟩ := resolves.member
        cases other
      · exact body
    · exact .not
  | .parameter | .member _ _ | .constant _ | .compare _ _ _ | .construct _ | .call _ _ _ => by
    simp [Expr.leaves]

/-- A refused predicate is refused for a leaf, and the leaves before it have conditions. -/
theorem leaf_of_refused : ∀ (e : Expr) (error : CompileError),
    scope.condition mapping e = .error error →
      ∃ before leaf after, e.leaves = before ++ leaf :: after ∧
        (∀ other ∈ before, scope.Accepts mapping other) ∧
        scope.condition mapping leaf = .error error
  | .logical op left right, error, refused => by
    rcases bind_failure refused with leftRefused | ⟨c, leftOk, rest⟩
    · obtain ⟨before, leaf, after, leaves, accepted, fault⟩ := leaf_of_refused left error leftRefused
      exact ⟨before, leaf, after ++ right.leaves, by simp [Expr.leaves, leaves], accepted, fault⟩
    · rcases bind_failure rest with rightRefused | ⟨_, _, success⟩
      · obtain ⟨before, leaf, after, leaves, accepted, fault⟩ :=
          leaf_of_refused right error rightRefused
        have leftAccepted := (accepts_iff_leaves left).mp ((accepts_iff left).mpr ⟨c, leftOk⟩)
        refine ⟨left.leaves ++ before, leaf, after, by simp [Expr.leaves, leaves], ?_, fault⟩
        exact List.forall_mem_append.mpr ⟨leftAccepted, accepted⟩
      · cases success
  | .not inner, error, refused => by
    cases compound : inner.isAccess with
    | false =>
      rw [condition_not compound] at refused
      rcases bind_failure refused with innerRefused | ⟨_, _, success⟩
      · exact leaf_of_refused inner error innerRefused
      · cases success
    | true =>
      cases inner with
      | member target name =>
        rcases bind_failure refused with unresolved | ⟨_, _, success⟩
        · refine ⟨[], .member target name, [], rfl, by simp, ?_⟩
          rw [condition, unresolved]
          rfl
        · cases success
      | _ => cases compound
  | .parameter, error, refused => ⟨[], .parameter, [], rfl, by simp, refused⟩
  | .member target name, error, refused => ⟨[], .member target name, [], rfl, by simp, refused⟩
  | .constant value, error, refused => ⟨[], .constant value, [], rfl, by simp, refused⟩
  | .compare op left right, error, refused =>
    ⟨[], .compare op left right, [], rfl, by simp, refused⟩
  | .construct members, error, refused => ⟨[], .construct members, [], rfl, by simp, refused⟩
  | .call method target arguments, error, refused =>
    ⟨[], .call method target arguments, [], rfl, by simp, refused⟩

theorem not_accepts_of_refused {e : Expr} {error : CompileError}
    (refused : scope.condition mapping e = .error error) : ¬ scope.Accepts mapping e := by
  intro accepts
  obtain ⟨c, success⟩ := condition_of_accepts accepts
  rw [refused] at success
  cases success

end Scope

/-- A list has one leftmost item that fails a test. -/
theorem eq_of_leftmost {α : Type} {P : α → Prop} {before other after rest : List α} {x y : α}
    (same : before ++ x :: after = other ++ y :: rest) (passed : ∀ a ∈ before, P a)
    (passedOther : ∀ a ∈ other, P a) (failed : ¬ P x) (failedOther : ¬ P y) : x = y := by
  induction before generalizing other with
  | nil =>
    cases other with
    | nil => exact (List.cons.inj same).1
    | cons z others =>
      obtain ⟨rfl, -⟩ := List.cons.inj same
      exact absurd (passedOther x (by simp)) failed
  | cons a before ih =>
    cases other with
    | nil =>
      obtain ⟨rfl, -⟩ := List.cons.inj same
      exact absurd (passed a (by simp)) failedOther
    | cons z others =>
      rw [List.forall_mem_cons] at passed passedOther
      exact ih (List.cons.inj same).2 passed.2 passedOther.2

namespace Context

theorem filterStage_succeeds_iff (context : Context) (e : Expr) :
    (∃ body, context.filterStage e = .ok ⟨"$match", .obj body⟩) ↔
      context.scope.Accepts context.mapping e := by
  rw [Scope.accepts_iff]
  constructor
  · rintro ⟨body, success⟩
    obtain ⟨c, accepted, -⟩ := filterStage_success success
    exact ⟨c, accepted⟩
  · rintro ⟨c, accepted⟩
    refine ⟨c.document context.config.flattening, ?_⟩
    rw [filterStage, accepted]
    rfl

theorem filterStage_refuses_iff (context : Context) (e : Expr) (error : CompileError) :
    context.filterStage e = .error error ↔
      context.scope.condition context.mapping e = .error error := by
  constructor
  · intro refused
    rcases bind_failure refused with unaccepted | ⟨_, _, success⟩
    · exact unaccepted
    · cases success
  · intro refused
    rw [filterStage, refused]
    rfl

/-- A predicate is lowered if and only if it is in the grammar, in every layout of
connectives. Otherwise it is refused for its leftmost leaf that is not in the grammar. -/
theorem filterStage_grammar (context : Context) (e : Expr) :
    ((∃ body, context.filterStage e = .ok ⟨"$match", .obj body⟩) ↔
      context.scope.Accepts context.mapping e) ∧
    ∀ error, context.filterStage e = .error error ↔
      ∃ before leaf after, e.leaves = before ++ leaf :: after ∧
        (∀ other ∈ before, context.scope.Accepts context.mapping other) ∧
        ¬ context.scope.Accepts context.mapping leaf ∧
        context.filterStage leaf = .error error := by
  refine ⟨filterStage_succeeds_iff context e, fun error => ?_⟩
  simp only [filterStage_refuses_iff]
  constructor
  · intro refused
    obtain ⟨before, leaf, after, leaves, accepted, fault⟩ := Scope.leaf_of_refused e error refused
    exact ⟨before, leaf, after, leaves, accepted, Scope.not_accepts_of_refused fault, fault⟩
  · rintro ⟨before, leaf, after, leaves, accepted, unaccepted, fault⟩
    cases outcome : context.scope.condition context.mapping e with
    | ok c =>
      have whole := (Scope.accepts_iff_leaves e).mp (Scope.accepts_of_condition e c outcome)
      exact absurd (whole leaf (by simp [leaves])) unaccepted
    | error other =>
      obtain ⟨earlier, first, rest, split, good, blamed⟩ := Scope.leaf_of_refused e other outcome
      have same : leaf = first := eq_of_leftmost (leaves.symm.trans split) accepted good
        unaccepted (Scope.not_accepts_of_refused blamed)
      rw [← same, fault] at blamed
      cases blamed
      rfl

/-- Of two conditions, the one behind an unknown member is refused first. -/
theorem filterStage_grammar_leftmost :
    let asked : Expr := .logical .and (.field "Active")
      (.not (.logical .or (.compare .lt (.field "Size") (.constant (.int 3))) .parameter))
    ¬ peopleMerged.scope.Accepts people asked ∧
      peopleMerged.filterStage asked = .error (.unknownField "User" "Size") := by
  intro asked
  have refused : peopleMerged.filterStage asked = .error (.unknownField "User" "Size") :=
    ((filterStage_grammar peopleMerged asked).2 (.unknownField "User" "Size")).mpr
      ⟨[.field "Active"], .compare .lt (.field "Size") (.constant (.int 3)), [.parameter], rfl,
        by
          intro other listed
          obtain rfl := List.mem_singleton.mp listed
          exact ((filterStage_grammar peopleMerged (.field "Active")).1).mp ⟨_, rfl⟩,
        Scope.not_accepts_of_refused rfl, rfl⟩
  exact ⟨Scope.not_accepts_of_refused ((filterStage_refuses_iff _ _ _).mp refused), refused⟩

end Context
end DocQuery
