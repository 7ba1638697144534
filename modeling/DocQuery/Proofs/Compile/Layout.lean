import DocQuery.Collection.Store
import DocQuery.Compile.Build
import DocQuery.Proofs.Computed.Selection
import Mathlib.Data.List.Forall2

/-!
# Layouts do not change queries

The layout of connectives decides how the bodies of `$match` and `$project` stages are
written and nothing else. Two stages agree if they have the same operator and make the
same of any documents, failures included; agreeing pipelines do so stage by stage.
`compile_layout` shows that all layouts fail to compile alike or give agreeing pipelines
with the same scope behind them. Nothing is assumed of stored names, so also bodies that
no collection can treat fail alike.
-/
namespace DocQuery

/-- Two results are the same failure, or successes that are related. -/
def Alike {ε α : Type} (related : α → α → Prop) : Except ε α → Except ε α → Prop
  | .ok first, .ok second => related first second
  | .error first, .error second => first = second
  | _, _ => False

theorem Alike.refl {ε α : Type} {related : α → α → Prop} (reflexive : ∀ a, related a a)
    (result : Except ε α) : Alike related result result := by
  cases result with
  | error error => exact rfl
  | ok value => exact reflexive value

theorem Alike.cases {ε α : Type} {related : α → α → Prop} {first second : Except ε α}
    (same : Alike related first second) :
    (∃ error, first = .error error ∧ second = .error error) ∨
      ∃ a b, first = .ok a ∧ second = .ok b ∧ related a b := by
  rcases first with error | a
  · rcases second with other | b
    · have equal : error = other := same
      exact .inl ⟨error, rfl, by rw [equal]⟩
    · exact same.elim
  · rcases second with other | b
    · exact same.elim
    · exact .inr ⟨a, b, rfl, rfl, same⟩

/-- Related successes go on alike if the next steps do. -/
theorem Alike.bind {ε α β : Type} {related : α → α → Prop} {after : β → β → Prop}
    {first second : Except ε α} {f g : α → Except ε β} (same : Alike related first second)
    (next : ∀ a b, related a b → Alike after (f a) (g b)) :
    Alike after (first >>= f) (second >>= g) := by
  rcases same.cases with ⟨error, rfl, rfl⟩ | ⟨a, b, rfl, rfl, here⟩
  · exact rfl
  · exact next a b here

namespace Evaluate

theorem filter_congr {a b : Members}
    (same : ∀ document, Match.holds document a = Match.holds document b) (documents : List Json) :
    filter a documents = filter b documents := by
  induction documents with
  | nil => rfl
  | cons document rest ih => rw [filter, filter, same, ih]

theorem projectAll_congr {a b : Members}
    (same : ∀ document, Project.project document a = Project.project document b)
    (documents : List Json) : projectAll a documents = projectAll b documents := by
  induction documents with
  | nil => rfl
  | cons document rest ih => rw [projectAll, projectAll, same, ih]

end Evaluate

namespace Stage

/-- Two stages of one operator that make the same of any documents. -/
def Agrees (first second : Stage) : Prop :=
  first.operator = second.operator ∧
    ∀ sorter documents,
      Evaluate.applyStage sorter first documents = Evaluate.applyStage sorter second documents

theorem Agrees.refl (stage : Stage) : stage.Agrees stage :=
  ⟨rfl, fun _ _ => rfl⟩

theorem agrees_of_holds {a b : Members}
    (same : ∀ document, Match.holds document a = Match.holds document b) :
    Agrees ⟨"$match", .obj a⟩ ⟨"$match", .obj b⟩ :=
  ⟨rfl, fun _ => Evaluate.filter_congr same⟩

theorem agrees_of_project {a b : Members}
    (same : ∀ document, Project.project document a = Project.project document b) :
    Agrees ⟨"$project", .obj a⟩ ⟨"$project", .obj b⟩ :=
  ⟨rfl, fun _ => Evaluate.projectAll_congr same⟩

end Stage

namespace Pipeline

/-- Two pipelines that agree stage by stage. -/
def Agrees (first second : Pipeline) : Prop :=
  List.Forall₂ Stage.Agrees first second

theorem Agrees.operators {first second : Pipeline} (agree : Agrees first second) :
    first.map Stage.operator = second.map Stage.operator := by
  induction agree with
  | nil => rfl
  | cons here _ ih => rw [List.map_cons, List.map_cons, here.1, ih]

/-- Agreeing pipelines make the same of any documents. -/
theorem Agrees.run {first second : Pipeline} (agree : Agrees first second) (sorter : Sorter Json)
    (documents : List Json) :
    Evaluate.run sorter first documents = Evaluate.run sorter second documents := by
  induction agree generalizing documents with
  | nil => rfl
  | @cons stage other rest others here _ ih =>
    rw [Evaluate.run, Evaluate.run, here.2 sorter documents]
    cases Evaluate.applyStage sorter other documents with
    | error error => rfl
    | ok next => exact ih next

end Pipeline

namespace Operation

/-- No member that a selection constructs is named like an operator. -/
def UnmarkedNames : Operation → Prop
  | .select projection => ∀ member ∈ projection.constructed, Sigil.isMarked member.1 = false
  | _ => True

end Operation

namespace Context

/-- The layout of connectives in another one. -/
def withLayout (context : Context) (layout : Flattening) : Context :=
  { context with config := { context.config with flattening := layout } }

variable (context : Context) (a b : Flattening)

theorem filterStage_alike (predicate : Expr) :
    Alike Stage.Agrees ((context.withLayout a).filterStage predicate)
      ((context.withLayout b).filterStage predicate) := by
  unfold filterStage withLayout
  cases context.scope.condition context.mapping predicate with
  | error error => exact rfl
  | ok c =>
    apply Stage.agrees_of_holds
    intro document
    rw [Condition.holds_document, Condition.holds_document]

theorem selectStage_alike {projection : Expr}
    (unmarked : ∀ member ∈ projection.constructed, Sigil.isMarked member.1 = false) :
    Alike Stage.Agrees ((context.withLayout a).selectStage projection)
      ((context.withLayout b).selectStage projection) := by
  rw [selectStage_eq, selectStage_eq]
  unfold withLayout
  cases chosen : context.scope.selected context.mapping projection with
  | error error => exact rfl
  | ok values =>
    have readable := Scope.readable_of_selected chosen unmarked
    cases values with
    | nil => exact rfl
    | cons first rest =>
      apply Stage.agrees_of_project
      intro document
      rw [Project.project_memberForms document a readable,
        Project.project_memberForms document b readable]

/-- One operation is lowered alike in any two layouts. -/
theorem stage_alike (rules : RuleSet) (operation : Operation) (unmarked : operation.UnmarkedNames) :
    Alike Stage.Agrees ((context.withLayout a).stage rules operation)
      ((context.withLayout b).stage rules operation) := by
  unfold stage
  cases rules operation.kind with
  | none => exact rfl
  | some rule =>
    cases rule with
    | filter =>
      cases operation with
      | filter predicate => exact context.filterStage_alike a b predicate
      | _ => exact rfl
    | select =>
      cases operation with
      | select projection => exact context.selectStage_alike a b unmarked
      | _ => exact rfl
    | orderBy | skip | take =>
      -- These rules do not ask for the layout.
      cases operation <;> exact Alike.refl Stage.Agrees.refl _

end Context

namespace CompiledQuery

/-- The pipelines agree, and what they yield has the same scope. -/
def Agrees (first second : CompiledQuery) : Prop :=
  first.outputScope = second.outputScope ∧ first.pipeline.Agrees second.pipeline

end CompiledQuery

namespace Compiler

/-- The compiler with another layout of connectives. -/
def withLayout (compiler : Compiler) (layout : Flattening) : Compiler :=
  { compiler with config := { compiler.config with flattening := layout } }

variable (compiler : Compiler) (a b : Flattening)

theorem lower_alike (scope : Scope) (operation : Operation) (unmarked : operation.UnmarkedNames) :
    Alike (fun first second => first.1.Agrees second.1 ∧ first.2 = second.2)
      ((compiler.withLayout a).lower scope operation)
      ((compiler.withLayout b).lower scope operation) := by
  have stages := Context.stage_alike ⟨compiler.mapping, scope, compiler.config⟩ a b
    compiler.rules operation unmarked
  apply stages.bind
  intro first second agree
  have scopes : (compiler.withLayout a).scopeAfter scope operation =
      (compiler.withLayout b).scopeAfter scope operation := rfl
  rw [scopes]
  cases (compiler.withLayout b).scopeAfter scope operation with
  | error error => exact rfl
  | ok next => exact ⟨agree, rfl⟩

/-- A whole list of operations is compiled alike from any position and in any scope. -/
theorem compileFrom_alike (position : Nat) (scope : Scope) (operations : List Operation)
    (unmarked : ∀ operation ∈ operations, operation.UnmarkedNames) :
    Alike CompiledQuery.Agrees ((compiler.withLayout a).compileFrom position scope operations)
      ((compiler.withLayout b).compileFrom position scope operations) := by
  induction operations generalizing position scope with
  | nil => exact ⟨rfl, .nil⟩
  | cons operation rest ih =>
    have step := compiler.lower_alike a b scope operation (unmarked operation (by simp))
    rw [compileFrom, compileFrom]
    rcases step.cases with ⟨error, first, second⟩ |
      ⟨⟨stage, next⟩, ⟨other, _⟩, first, second, agree, rfl⟩
    · rw [first, second]
      exact rfl
    · have tail := ih (position + 1) next fun later listed => unmarked later (by simp [listed])
      simp only [first, second]
      rcases tail.cases with ⟨failure, left, right⟩ |
        ⟨query, others, left, right, scopes, pipelines⟩
      · rw [left, right]
        exact rfl
      · rw [left, right]
        exact ⟨scopes, .cons agree pipelines⟩

end Compiler

/-- The layout of connectives never changes a query: the operations fail to compile alike
in every layout, or compile in every layout to pipelines of the same operators, with the
same scope behind them, that every store answers alike. -/
theorem compile_layout (compiler : Compiler) (entityType : String) (operations : List Operation)
    (unmarked : ∀ operation ∈ operations, operation.UnmarkedNames) :
    (∃ failure, ∀ layout,
      (compiler.withLayout layout).compile entityType operations = .error failure) ∨
    ∃ query : Flattening → CompiledQuery,
      (∀ layout, (compiler.withLayout layout).compile entityType operations = .ok (query layout)) ∧
      ∀ a b, (query a).outputScope = (query b).outputScope ∧
        (query a).pipeline.map Stage.operator = (query b).pipeline.map Stage.operator ∧
        ∀ (store : Store) sorter,
          store.evaluate sorter (query a).pipeline = store.evaluate sorter (query b).pipeline := by
  have alike (a b : Flattening) :=
    compiler.compileFrom_alike a b 0 (.entity entityType) operations unmarked
  cases nested : (compiler.withLayout .nested).compile entityType operations with
  | error failure =>
    refine .inl ⟨failure, ?_⟩
    intro layout
    rcases (alike .nested layout).cases with ⟨other, here, there⟩ | ⟨_, _, here, -⟩
    · cases nested.symm.trans here
      exact there
    · cases nested.symm.trans here
  | ok _ =>
    have compiles : ∀ layout, ∃ query,
        (compiler.withLayout layout).compile entityType operations = .ok query := by
      intro layout
      rcases (alike .nested layout).cases with ⟨_, here, -⟩ | ⟨_, query, -, there, -⟩
      · cases nested.symm.trans here
      · exact ⟨query, there⟩
    choose query compiled using compiles
    refine .inr ⟨query, compiled, ?_⟩
    intro a b
    rcases (alike a b).cases with ⟨_, here, -⟩ | ⟨_, _, here, there, scopes, pipelines⟩
    · cases (compiled a).symm.trans here
    · cases (compiled a).symm.trans here
      cases (compiled b).symm.trans there
      exact ⟨scopes, pipelines.operators, fun store sorter => pipelines.run sorter store.documents⟩

/-- Cards of all adults but the first. -/
def adultCards : List Operation :=
  [.filter adultsSomewhere, .select card, .skip (.constant (.int 1))]

theorem compile_layout_adultCards :
    (∀ operation ∈ adultCards, operation.UnmarkedNames) ∧
      ∃ query : Flattening → CompiledQuery,
        (∀ layout, (Compiler.withLayout ⟨RuleSet.standard, people, {}⟩ layout).compile
          "User" adultCards = .ok (query layout)) ∧
        ∀ a b, (query a).outputScope = (query b).outputScope ∧
          (query a).pipeline.map Stage.operator = (query b).pipeline.map Stage.operator ∧
          ∀ (store : Store) sorter,
            store.evaluate sorter (query a).pipeline = store.evaluate sorter (query b).pipeline := by
  have unmarked : ∀ operation ∈ adultCards, operation.UnmarkedNames := by
    intro operation listed
    simp only [adultCards, List.mem_cons, List.not_mem_nil, or_false] at listed
    rcases listed with rfl | rfl | rfl
    · trivial
    · exact (by decide : ∀ member ∈ card.constructed, Sigil.isMarked member.1 = false)
    · trivial
  refine ⟨unmarked, ?_⟩
  rcases compile_layout ⟨RuleSet.standard, people, {}⟩ "User" adultCards unmarked with
    ⟨failure, fails⟩ | compiled
  · cases fails .nested
  · exact compiled

end DocQuery
