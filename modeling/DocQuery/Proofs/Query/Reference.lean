import DocQuery.Proofs.Acceptance
import DocQuery.Query.Session

/-!
# What an enumeration should give

The items that a query stands for, said without cursors and streams: the error that the query
does not compile with, the error that the store does not answer with, or the results one by
one, cut behind the first that fails. Beside them, which processors see which entities for
each result. `item_make` and `effects_make` show that making an item of a result gives this
item and has the effects of these invocations, and `prepares_start` that starting a query
prepares these results.
-/
namespace DocQuery

/-- A list up to and with its first element that meets a condition. -/
def cutAfter {α : Type} (stop : α → Bool) : List α → List α
  | [] => []
  | a :: rest => a :: if stop a then [] else cutAfter stop rest

theorem mem_of_mem_cutAfter {α : Type} {stop : α → Bool} {a : α} {list : List α}
    (listed : a ∈ cutAfter stop list) : a ∈ list := by
  induction list with
  | nil => exact listed
  | cons b rest ih =>
    rw [cutAfter, List.mem_cons] at listed
    rcases listed with rfl | listed
    · exact List.mem_cons_self
    · split at listed
      · cases listed
      · exact List.mem_cons_of_mem _ (ih listed)

theorem any_cutAfter {α : Type} (stop : α → Bool) (list : List α) :
    (cutAfter stop list).any stop = list.any stop := by
  induction list with
  | nil => rfl
  | cons a rest ih =>
    rw [cutAfter, List.any_cons, List.any_cons]
    cases stop a with
    | true => rfl
    | false => exact ih

theorem cutAfter_of_none {α : Type} {stop : α → Bool} {list : List α}
    (none : list.any stop = false) : cutAfter stop list = list := by
  induction list with
  | nil => rfl
  | cons a rest ih =>
    obtain ⟨here, later⟩ := Bool.or_eq_false_iff.mp none
    rw [cutAfter, here, ih later]
    rfl

@[simp] theorem cutAfter_never {α : Type} (list : List α) :
    cutAfter (fun _ => false) list = list := by
  induction list with
  | nil => rfl
  | cons a rest ih => exact congrArg (a :: ·) ih

theorem length_cutAfter_le {α : Type} (stop : α → Bool) (list : List α) :
    (cutAfter stop list).length ≤ list.length := by
  induction list with
  | nil => exact Nat.le_refl _
  | cons a rest ih =>
    rw [cutAfter, List.length_cons, List.length_cons]
    split
    · exact Nat.succ_le_succ (Nat.zero_le _)
    · exact Nat.succ_le_succ ih

namespace Processor

variable {τ : Type}

/-- The entity behind a processor. -/
def pass (entity : τ) (processor : Processor τ) : Except ProcessorFailure τ :=
  match (processor.run entity).failure with
  | some failure => .error failure
  | none => .ok (processor.run entity).entity

/-- The entity behind processors in their order, or the first failure. -/
def passAll (processors : List (Processor τ)) (entity : τ) : Except ProcessorFailure τ :=
  processors.foldlM pass entity

/-- A processor, and the entity that it is given. -/
structure Invocation (τ : Type) where
  processor : Processor τ
  entity : τ

/-- What a processor asks for when it is invoked. -/
def Invocation.effects (invocation : Invocation τ) : List Effect :=
  (invocation.processor.run invocation.entity).effects

/-- What is logged of an invocation: its failure, if it fails. -/
def Invocation.entries (invocation : Invocation τ) : List Log.Entry :=
  ((invocation.processor.run invocation.entity).failure.map invocation.processor.failed).toList

/-- The invocations for one entity: processors in their order, up to the first that fails. -/
def invocations : List (Processor τ) → τ → List (Invocation τ)
  | [], _ => []
  | processor :: rest, entity =>
    ⟨processor, entity⟩ ::
      match pass entity processor with
      | .ok next => invocations rest next
      | .error _ => []

/-- Running processors passes the entity through them. -/
theorem runAll_eq (processors : List (Processor τ)) (entity : τ) :
    (match (runAll processors entity).failure with
      | some failure => .error failure
      | none => .ok (runAll processors entity).entity) = passAll processors entity := by
  induction processors generalizing entity with
  | nil => rfl
  | cons processor rest ih =>
    rw [passAll, List.foldlM_cons, pass, runAll]
    cases (processor.run entity).failure with
    | some failure => rfl
    | none => exact ih (processor.run entity).entity

theorem effects_runAll (processors : List (Processor τ)) (entity : τ) :
    (runAll processors entity).effects =
      (invocations processors entity).flatMap Invocation.effects := by
  induction processors generalizing entity with
  | nil => rfl
  | cons processor rest ih =>
    rw [runAll, invocations, pass, List.flatMap_cons]
    cases (processor.run entity).failure with
    | some failure => exact (List.append_nil _).symm
    | none => exact congrArg _ (ih (processor.run entity).entity)

theorem entries_runAll (processors : List (Processor τ)) (entity : τ) :
    (runAll processors entity).entries =
      (invocations processors entity).flatMap Invocation.entries := by
  induction processors generalizing entity with
  | nil => rfl
  | cons processor rest ih =>
    rw [runAll, invocations, pass, List.flatMap_cons, Invocation.entries]
    cases (processor.run entity).failure with
    | some failure => rfl
    | none => exact ih (processor.run entity).entity

end Processor

open Processor (Invocation)

def Item.isEntity {τ : Type} : Item τ → Bool
  | .entity _ => true
  | .projection _ => false

namespace Materializer

variable {τ : Type} (m : Materializer τ)

/-- The entity of a document, decoded and passed through the processors. -/
def entityIn (document : Json) : Except QueryError τ := do
  let entity ← (m.type.decode document).mapError (.materialization m.type.name)
  (Processor.passAll m.processors entity).mapError .processor

/-- The item that a result stands for. -/
def itemOf : Except ExecutionError Json → ItemResult τ
  | .error error => .error (.execution error)
  | .ok document =>
    if m.yieldsEntities then (m.entityIn document).map .entity else .ok (.projection document)

/-- The invocations for a result. -/
def invocationsOf : Except ExecutionError Json → List (Invocation τ)
  | .error _ => []
  | .ok document =>
    if m.yieldsEntities then
      match m.type.decode document with
      | .ok entity => Processor.invocations m.processors entity
      | .error _ => []
    else []

/-- The results up to and with the first that gives no item. -/
def delivered (results : ResultStream) : ResultStream :=
  cutAfter (fun result => isFailed (m.itemOf result)) results

theorem delivered_cons (result : Except ExecutionError Json) (rest : ResultStream) :
    m.delivered (result :: rest) =
      result :: if isFailed (m.itemOf result) then [] else m.delivered rest := rfl

/-- The result behind the first that gives no item, if there is one. -/
def behindFailure (results : ResultStream) : ResultStream :=
  (results.drop (m.delivered results).length).take 1

/-- Where no item is an error there is nothing behind a failure. -/
theorem behindFailure_of_delivered {results : ResultStream}
    (delivered : (cutAfter isFailed (results.map m.itemOf)).any isFailed = false) :
    m.behindFailure results = [] := by
  rw [any_cutAfter, List.any_map] at delivered
  have all : m.delivered results = results := cutAfter_of_none delivered
  rw [behindFailure, all, List.drop_length, List.take_nil]

theorem isEntity_of_itemOf {result : Except ExecutionError Json} {item : Item τ}
    (success : m.itemOf result = .ok item) : item.isEntity = m.yieldsEntities := by
  cases result with
  | error error => cases success
  | ok document =>
    rw [itemOf] at success
    split at success
    next yields =>
      cases entered : m.entityIn document with
      | error error =>
        rw [entered] at success
        cases success
      | ok entity =>
        rw [entered] at success
        cases success
        exact yields.symm
    next yields =>
      cases success
      exact (Bool.eq_false_iff.mpr yields).symm

theorem entityIn_of_decoded {document : Json} {entity : τ}
    (decoded : m.type.decode document = .ok entity) :
    m.entityIn document = (Processor.passAll m.processors entity).mapError .processor := by
  rw [entityIn, decoded]
  rfl

theorem item_make (result : Except ExecutionError Json) :
    (m.make result).item = m.itemOf result := by
  cases result with
  | error error => rfl
  | ok document =>
    rw [make, materialize, itemOf]
    cases m.yieldsEntities with
    | false => rfl
    | true =>
      cases decoded : m.type.decode document with
      | error reason =>
        rw [entityIn, decoded]
        rfl
      | ok entity =>
        rw [m.entityIn_of_decoded decoded, ← Processor.runAll_eq, if_pos rfl, if_pos rfl]
        simp only
        cases (Processor.runAll m.processors entity).failure <;> rfl

theorem effects_make (result : Except ExecutionError Json) :
    (m.make result).effects = (m.invocationsOf result).flatMap Invocation.effects := by
  cases result with
  | error error => rfl
  | ok document =>
    rw [make, materialize, invocationsOf]
    cases m.yieldsEntities with
    | false => rfl
    | true =>
      cases m.type.decode document with
      | error reason => rfl
      | ok entity =>
        exact Processor.effects_runAll m.processors entity

end Materializer

/-! ## What a compiled query yields -/

theorem Scope.isEntity_of_project {mapping : FieldMapping} {scope next : Scope} {projection : Expr}
    (behind : scope.project mapping projection = .ok next) : next.isEntity = false := by
  unfold Scope.project at behind
  split at behind
  · obtain ⟨field, -, behind⟩ := bind_success behind
    cases behind
    rfl
  · obtain ⟨shape, -, behind⟩ := bind_success behind
    cases behind
    rfl

namespace Compiler

variable {compiler : Compiler}

theorem isEntity_of_scopeAfter {scope next : Scope} {operation : Operation}
    (behind : compiler.scopeAfter scope operation = .ok next) :
    next.isEntity = (scope.isEntity && operation.kind ≠ .select) := by
  cases operation with
  | select projection => simpa [Operation.kind] using Scope.isEntity_of_project behind
  | _ =>
    cases behind
    simp [Operation.kind]

/-- The results are entities exactly if nothing was selected. -/
theorem yieldsEntities_of_compileFrom {position : Nat} {scope : Scope}
    {operations : List Operation} {compiled : CompiledQuery}
    (success : compiler.compileFrom position scope operations = .ok compiled) :
    compiled.yieldsEntities = (scope.isEntity && operations.all (·.kind ≠ .select)) := by
  induction operations generalizing position scope compiled with
  | nil =>
    cases success
    simp [CompiledQuery.yieldsEntities]
  | cons operation rest ih =>
    obtain ⟨stage, next, query, -, behind, tail, rfl⟩ := compileFrom_cons_success success
    have yields := ih tail
    rw [isEntity_of_scopeAfter behind, Bool.and_assoc] at yields
    rw [List.all_cons]
    exact yields

end Compiler

/-- The query selects, so that it yields projections. -/
def Query.selects (query : Query) : Bool :=
  query.chain.operations.any (·.kind = .select)

namespace Environment

variable {τ : Type}

theorem yieldsEntities_of_build {env : Environment τ} {query : Query} {compiled : CompiledQuery}
    (success : env.build query = .ok compiled) : compiled.yieldsEntities = !query.selects := by
  rw [Compiler.yieldsEntities_of_compileFrom success, Query.selects, List.not_any_eq_all_not]
  simp [Scope.isEntity]

end Environment

/-- What a start has prepared: an error, or results of which a materializer makes items. -/
inductive Prepares {τ : Type} (m : Materializer τ) :
    Start τ → Except QueryError ResultStream → Prop
  | refused (error : QueryError) : Prepares m (.error error) (.error error)
  | unanswered (error : ExecutionError) :
    Prepares m (.ok (m, .error error)) (.error (.execution error))
  | answered (results : ResultStream) : Prepares m (.ok (m, .ok results)) (.ok results)

namespace Session

variable {τ : Type} (env : Environment τ) (session : Session τ) (query : Query)

/-- How the results of a query become items. -/
def materializer : Materializer τ :=
  { type := env.type
    yieldsEntities := !query.selects
    processors := (session.chainOf query).processors }

/-- The results of a query, or why there are none. -/
def resultsOf : Except QueryError ResultStream :=
  match env.build query with
  | .error failure => .error (.compile failure.error)
  | .ok compiled => (session.store.results env.sorter compiled.pipeline).mapError .execution

/-- Results are missing only because the query does not compile or the store refuses it. -/
theorem resultsOf_error {query : Query} {error : QueryError}
    (missing : session.resultsOf env query = .error error) :
    (∃ cause, error = .compile cause) ∨ ∃ cause, error = .execution cause := by
  unfold resultsOf at missing
  cases built : env.build query with
  | error failure =>
    rw [built] at missing
    cases missing
    exact .inl ⟨failure.error, rfl⟩
  | ok compiled =>
    rw [built] at missing
    simp only at missing
    cases outcome : session.store.results env.sorter compiled.pipeline with
    | error cause =>
      rw [outcome] at missing
      cases missing
      exact .inr ⟨cause, rfl⟩
    | ok results =>
      rw [outcome] at missing
      cases missing

/-- The items that an enumeration of a query should give. -/
def reference : List (ItemResult τ) :=
  match session.resultsOf env query with
  | .error error => [.error error]
  | .ok results => cutAfter isFailed (results.map (session.materializer env query).itemOf)

/-- The invocations that an enumeration of a query should make. -/
def invocations : List (Invocation τ) :=
  match session.resultsOf env query with
  | .error _ => []
  | .ok results =>
    let m := session.materializer env query
    (m.delivered results).flatMap m.invocationsOf

/-- The invocations for the result behind the first failure. -/
def overrun : List (Invocation τ) :=
  match session.resultsOf env query with
  | .error _ => []
  | .ok results =>
    let m := session.materializer env query
    (m.behindFailure results).flatMap m.invocationsOf

/-- A query yields projections exactly if it selects. -/
theorem isEntity_of_mem_reference {item : Item τ}
    (listed : .ok item ∈ session.reference env query) : item.isEntity = !query.selects := by
  unfold reference at listed
  split at listed
  · cases List.mem_singleton.mp listed
  · obtain ⟨result, -, success⟩ := List.mem_map.mp (mem_of_mem_cutAfter listed)
    exact Materializer.isEntity_of_itemOf _ success

/-- Starting a query prepares its results. -/
theorem prepares_start : Prepares (session.materializer env query)
    (session.start env query).start (session.resultsOf env query) := by
  unfold start resultsOf
  cases built : env.build query with
  | error failure => exact .refused _
  | ok compiled =>
    simp only [Environment.yieldsEntities_of_build built]
    change Prepares _ (.ok (session.materializer env query, session.store.results _ _)) _
    cases session.store.results env.sorter compiled.pipeline with
    | error error => exact .unanswered error
    | ok results => exact .answered results

end Session
end DocQuery
