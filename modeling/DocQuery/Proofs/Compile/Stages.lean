import DocQuery.Entity.Catalog
import DocQuery.Proofs.Query.Reference
import DocQuery.Proofs.Scope.Projected

/-!
# One stage for each operation

Compiling goes through the operations once and takes the scope along.
`compileFrom_append` says what it does on one list behind another: the second is compiled
in the scope that the first leaves, and neither stages nor positions of the first depend on
it. So the beginnings of a query that compiles are compiled to the beginnings of its pipeline,
and a build that fails stops at one operation, whatever would come behind it.
-/
namespace DocQuery

/-- The operator of the stages for a kind of operation. -/
def OperationKind.operator : OperationKind → String
  | .filter => "$match"
  | .select => "$project"
  | .orderBy | .orderByDescending => "$sort"
  | .skip => "$skip"
  | .take => "$limit"

namespace Context

variable {context : Context}

theorem operator_of_countStage {operator : String} {kind : OperationKind} {e : Expr}
    {stage : Stage} (accepted : countStage operator kind e = .ok stage) :
    stage.operator = operator := by
  obtain ⟨n, -, accepted⟩ := bind_success accepted
  cases accepted
  rfl

theorem operator_of_sortStage {key : Expr} {direction : Int} {stage : Stage}
    (accepted : context.sortStage key direction = .ok stage) : stage.operator = "$sort" := by
  obtain ⟨path, -, accepted⟩ := bind_success accepted
  cases accepted
  rfl

/-- A stage has the operator of the operation that it is made of. -/
theorem operator_of_stage {rules : RuleSet} {operation : Operation} {stage : Stage}
    (accepted : context.stage rules operation = .ok stage) :
    stage.operator = operation.kind.operator := by
  have own := stage_success accepted
  cases operation with
  | filter predicate =>
    obtain ⟨c, -, rfl⟩ := filterStage_success own
    rfl
  | select projection =>
    obtain ⟨values, -, rfl⟩ := selectStage_success own
    rfl
  | orderBy key => exact operator_of_sortStage own
  | orderByDescending key => exact operator_of_sortStage own
  | skip e => exact operator_of_countStage own
  | take e => exact operator_of_countStage own

end Context

namespace Compiler

variable {compiler : Compiler}

/-! ## One operation -/

/-- There is a scope behind every operation that has a stage. -/
theorem scopeAfter_of_stageIn {scope : Scope} {operation : Operation} {stage : Stage}
    (staged : compiler.stageIn scope operation = .ok stage) :
    ∃ next, compiler.scopeAfter scope operation = .ok next := by
  cases operation with
  | select projection =>
    have own := Context.stage_success staged
    obtain ⟨values, chosen, -⟩ := Context.selectStage_success own
    exact Scope.project_of_selected chosen
  | _ => exact ⟨scope, rfl⟩

/-- An operation is refused for what the rules say of it, and for nothing else. -/
theorem lower_error_iff {scope : Scope} {operation : Operation} {error : CompileError} :
    compiler.lower scope operation = .error error ↔
      compiler.stageIn scope operation = .error error := by
  have unfolded : compiler.lower scope operation = (do
      let stage ← compiler.stageIn scope operation
      return (stage, ← compiler.scopeAfter scope operation)) := rfl
  rw [unfolded]
  cases staged : compiler.stageIn scope operation with
  | error other =>
    constructor
    · rintro ⟨⟩
      rfl
    · rintro ⟨⟩
      rfl
  | ok stage =>
    obtain ⟨next, behind⟩ := scopeAfter_of_stageIn staged
    rw [behind]
    exact ⟨nofun, nofun⟩

/-! ## All operations -/

/-- One list of operations behind another is compiled in the scope that the first leaves. -/
theorem compileFrom_append (position : Nat) (scope : Scope) (first second : List Operation) :
    compiler.compileFrom position scope (first ++ second) =
      match compiler.compileFrom position scope first with
      | .error failure => .error failure
      | .ok reached =>
        match compiler.compileFrom (position + first.length) reached.outputScope second with
        | .error failure => .error failure
        | .ok query => .ok { query with pipeline := reached.pipeline ++ query.pipeline } := by
  induction first generalizing position scope with
  | nil =>
    have first : compiler.compileFrom position scope [] = .ok ⟨[], scope⟩ := rfl
    simp only [List.nil_append, first, List.length_nil, Nat.add_zero]
    cases compiler.compileFrom position scope second <;> rfl
  | cons operation rest ih =>
    have counted : position + (operation :: rest).length = position + 1 + rest.length := by
      rw [List.length_cons]
      omega
    rw [List.cons_append, compileFrom, compileFrom, counted]
    cases compiler.lower scope operation with
    | error error => rfl
    | ok lowered =>
      simp only [ih]
      cases compiler.compileFrom (position + 1) lowered.2 rest with
      | error failure => rfl
      | ok reached =>
        simp only
        cases compiler.compileFrom (position + 1 + rest.length) reached.outputScope second <;> rfl

theorem length_of_compileFrom {position : Nat} {scope : Scope} {operations : List Operation}
    {query : CompiledQuery}
    (compiled : compiler.compileFrom position scope operations = .ok query) :
    query.pipeline.length = operations.length := by
  induction operations generalizing position scope query with
  | nil =>
    cases compiled
    rfl
  | cons operation rest ih =>
    obtain ⟨stage, next, others, -, -, tail, rfl⟩ := compileFrom_cons_success compiled
    rw [List.length_cons, List.length_cons, ih tail]

/-- Two lists that compile one behind the other compile each for itself. -/
theorem compileFrom_append_success {position : Nat} {scope : Scope}
    {first second : List Operation} {query : CompiledQuery}
    (compiled : compiler.compileFrom position scope (first ++ second) = .ok query) :
    ∃ reached others, compiler.compileFrom position scope first = .ok reached ∧
      compiler.compileFrom (position + first.length) reached.outputScope second = .ok others ∧
      query = { others with pipeline := reached.pipeline ++ others.pipeline } := by
  rw [compileFrom_append] at compiled
  split at compiled
  · cases compiled
  next reached firstOk =>
    split at compiled
    · cases compiled
    next others secondOk =>
      cases compiled
      exact ⟨reached, others, firstOk, secondOk, rfl⟩

/-- An operation that is refused ends the build, whatever comes behind it. -/
theorem compileFrom_refused {position : Nat} {scope : Scope} {before : List Operation}
    {operation : Operation} {reached : CompiledQuery} {error : CompileError}
    (compiled : compiler.compileFrom position scope before = .ok reached)
    (refused : compiler.stageIn reached.outputScope operation = .error error)
    (behind : List Operation) :
    compiler.compileFrom position scope (before ++ operation :: behind) =
      .error ⟨error, operation.kind, position + before.length⟩ := by
  have lowered := lower_error_iff.mpr refused
  rw [compileFrom_append, compiled]
  simp only [compileFrom, lowered]

/-- A build that fails was ended by an operation that is refused. -/
theorem compileFrom_failure {position : Nat} {scope : Scope} {operations : List Operation}
    {failure : BuildFailure}
    (failed : compiler.compileFrom position scope operations = .error failure) :
    ∃ before operation behind reached, operations = before ++ operation :: behind ∧
      compiler.compileFrom position scope before = .ok reached ∧
      compiler.stageIn reached.outputScope operation = .error failure.error ∧
      failure.operation = operation.kind ∧ failure.position = position + before.length := by
  induction operations generalizing position scope with
  | nil => cases failed
  | cons operation rest ih =>
    rw [compileFrom] at failed
    split at failed
    next error refused =>
      cases failed
      exact ⟨[], operation, rest, ⟨[], scope⟩, rfl, rfl, lower_error_iff.mp refused, rfl, rfl⟩
    next stage next lowered =>
      split at failed
      next other tail =>
        cases failed
        obtain ⟨before, later, behind, reached, rfl, compiled, refused, kind, counted⟩ := ih tail
        refine ⟨operation :: before, later, behind,
          { reached with pipeline := stage :: reached.pipeline }, rfl, ?_, refused, kind, ?_⟩
        · rw [compileFrom, lowered]
          simp only [compiled]
        · rw [counted, List.length_cons]
          omega
      · cases failed

/-- The operations before a position compile, and the one there is refused in the scope that
they leave. -/
def StopsAt (compiler : Compiler) (entityType : String) (operations : List Operation)
    (failure : BuildFailure) : Prop :=
  ∃ reached operation,
    compiler.compile entityType (operations.take failure.position) = .ok reached ∧
    operations[failure.position]? = some operation ∧
    compiler.stageIn reached.outputScope operation = .error failure.error ∧
    failure.operation = operation.kind

variable {entityType : String} {operations : List Operation} {failure : BuildFailure}

/-- Where a build stops, it fails, together with all that begin in the same way. -/
theorem StopsAt.compile_extended (stops : compiler.StopsAt entityType operations failure)
    (more : List Operation) :
    compiler.compile entityType (operations.take (failure.position + 1) ++ more) =
      .error failure := by
  obtain ⟨reached, operation, compiled, found, refused, kind⟩ := stops
  have stopped := compileFrom_refused compiled refused more
  have extended : operations.take (failure.position + 1) ++ more =
      operations.take failure.position ++ operation :: more := by
    rw [List.take_add_one, found]
    simp
  have counted : 0 + (operations.take failure.position).length = failure.position := by
    obtain ⟨inside, -⟩ := List.getElem?_eq_some_iff.mp found
    rw [List.length_take]
    omega
  rw [counted, ← kind] at stopped
  rw [extended]
  exact stopped

/-- A build fails exactly where it stops. -/
theorem compile_eq_error_iff :
    compiler.compile entityType operations = .error failure ↔
      compiler.StopsAt entityType operations failure := by
  constructor
  · intro failed
    obtain ⟨before, operation, behind, reached, rfl, compiled, refused, kind, counted⟩ :=
      compileFrom_failure failed
    have position : failure.position = before.length := by omega
    refine ⟨reached, operation, ?_, ?_, refused, kind⟩
    · rw [position, List.take_left]
      exact compiled
    · rw [position]
      simp
  · intro stops
    have whole := stops.compile_extended (operations.drop (failure.position + 1))
    rwa [List.take_append_drop] at whole

/-- The beginnings of a query that compiles are compiled to the beginnings of its pipeline,
and each stage is what the rules make of its operation in the scope there. -/
theorem compile_take {query : CompiledQuery}
    (compiled : compiler.compile entityType operations = .ok query) (count : Nat) :
    ∃ reached, compiler.compile entityType (operations.take count) = .ok reached ∧
      reached.pipeline = query.pipeline.take count ∧
      ∀ operation, operations[count]? = some operation →
        ∃ stage, query.pipeline[count]? = some stage ∧
          compiler.stageIn reached.outputScope operation = .ok stage := by
  have whole := compiled
  rw [← List.take_append_drop count operations] at whole
  obtain ⟨reached, others, firstOk, secondOk, rfl⟩ := compileFrom_append_success whole
  have length := length_of_compileFrom firstOk
  have rest := length_of_compileFrom secondOk
  rw [List.length_take] at length
  rw [List.length_drop] at rest
  refine ⟨reached, firstOk, ?_, ?_⟩
  · have short : reached.pipeline.length ≤ count := by omega
    have nothing : others.pipeline.take (count - reached.pipeline.length) = [] := by
      rw [List.take_eq_nil_iff, ← List.length_eq_zero_iff]
      omega
    rw [List.take_append, List.take_of_length_le short, nothing, List.append_nil]
  · intro operation found
    obtain ⟨inside, -⟩ := List.getElem?_eq_some_iff.mp found
    have here : reached.pipeline.length = count := by omega
    have next : operations.drop count = operation :: operations.drop (count + 1) := by
      rw [List.drop_eq_getElem_cons inside]
      congr 1
      exact Option.some.inj ((List.getElem?_eq_getElem inside).symm.trans found)
    rw [next] at secondOk
    obtain ⟨stage, behind, later, staged, -, -, rfl⟩ := compileFrom_cons_success secondOk
    refine ⟨stage, ?_, staged⟩
    rw [List.getElem?_append_right (Nat.le_of_eq here), here, Nat.sub_self]
    rfl

end Compiler

/-- Compiling makes one stage of each operation, in their order. If it succeeds, so it does on
every beginning of the operations, with the same stages; each stage is what the rules make of
its operation in the scope behind those before it, and has the operator of its kind. If it
fails, the build stops at exactly one operation, with the error of that operation, and all
operations that begin in this way fail alike; the failure is the one entry of a query that is
compiled or started and fails like this. -/
theorem compile_stage_for_operation (compiler : Compiler) (entityType : String)
    (operations : List Operation) :
    (∀ query, compiler.compile entityType operations = .ok query →
      query.pipeline.length = operations.length ∧
      (query.yieldsEntities = true ↔ ∀ operation ∈ operations, operation.kind ≠ .select) ∧
      ∀ count, ∃ reached,
        compiler.compile entityType (operations.take count) = .ok reached ∧
        reached.pipeline = query.pipeline.take count ∧
        ∀ operation, operations[count]? = some operation →
          ∃ stage, query.pipeline[count]? = some stage ∧
            compiler.stageIn reached.outputScope operation = .ok stage ∧
            stage.operator = operation.kind.operator) ∧
    ∀ failure, compiler.compile entityType operations = .error failure →
      (∀ other, compiler.StopsAt entityType operations other ↔ other = failure) ∧
      (∀ more, compiler.compile entityType (operations.take (failure.position + 1) ++ more) =
        .error failure) ∧
      let entry := Log.Entry.ofEvent .compileFailed
        [("code", failure.error.code), ("entity", entityType),
          ("message", failure.error.message), ("operation", failure.operation.name),
          ("position", toString failure.position)]
      Log.Entry.ofBuild entityType compiler.config (compiler.compile entityType operations) =
        entry ∧
      ∀ (τ : Type) (env : Environment τ) (session : Session τ) id query,
        session.queries[id]? = some query → env.type.name = entityType →
        env.build query = compiler.compile entityType operations →
          (session.step env (.compile id)).entries = [entry] ∧
            (session.start env query).entries = [entry] := by
  constructor
  · intro query compiled
    refine ⟨Compiler.length_of_compileFrom compiled, ?_, ?_⟩
    · have yields := Compiler.yieldsEntities_of_compileFrom compiled
      rw [yields]
      simp [Scope.isEntity]
    · intro count
      obtain ⟨reached, begun, stages, staged⟩ := Compiler.compile_take compiled count
      refine ⟨reached, begun, stages, ?_⟩
      intro operation found
      obtain ⟨stage, here, made⟩ := staged operation found
      exact ⟨stage, here, made, Context.operator_of_stage made⟩
  · intro failure failed
    have stops := Compiler.compile_eq_error_iff.mp failed
    refine ⟨?_, stops.compile_extended, ?_, ?_⟩
    · intro other
      constructor
      · intro otherStops
        have same := Compiler.compile_eq_error_iff.mpr otherStops
        exact Except.error.inj (same.symm.trans failed)
      · rintro rfl
        exact stops
    · rw [failed]
      rfl
    · rintro τ env session id query found rfl built
      have entry : env.buildEntry query = _ :=
        congrArg (Log.Entry.ofBuild env.type.name query.config) (built.trans failed)
      constructor
      · rw [Session.step, Session.withQuery, found]
        exact congrArg ([·]) entry
      · rw [Session.start, built.trans failed]
        exact congrArg ([·]) entry

/-- Cards of adults, ordered by something. -/
def cardsBy (key : String) : List Operation :=
  [.filter adultsSomewhere, .select card, .orderBy (.field key), .take (.constant (.int 1))]

/-- Cards show who they are of and do not show an age. -/
theorem compile_stage_for_operation_cards :
    let compiler : Compiler := ⟨.standard, people, {}⟩
    let failure : BuildFailure := ⟨.unknownField "projection" "Age", .orderBy, 2⟩
    let byAge : Query := { chain := (cardsBy "Age").foldl .append .root, mapping := people }
    let session : Session Json := { store := {}, queries := [byAge] }
    (∃ query reached stage, compiler.compile "User" (cardsBy "Who") = .ok query ∧
      query.pipeline.length = 4 ∧ compiler.compile "User" ((cardsBy "Who").take 2) = .ok reached ∧
      reached.pipeline = query.pipeline.take 2 ∧ query.pipeline[2]? = some stage ∧
      compiler.stageIn reached.outputScope (.orderBy (.field "Who")) = .ok stage ∧
      stage.operator = "$sort") ∧
    compiler.compile "User" (cardsBy "Age") = .error failure ∧
      compiler.StopsAt "User" (cardsBy "Age") failure ∧
      compiler.compile "User" ((cardsBy "Age").take 3 ++ [.skip (.constant .null)]) =
        .error failure ∧
      (session.step ⟨Catalog.user, .insertion⟩ (.compile 0)).entries =
        [.ofEvent .compileFailed
          [("code", failure.error.code), ("entity", "User"), ("message", failure.error.message),
            ("operation", "OrderBy"), ("position", toString 2)]] := by
  intro compiler failure byAge session
  have compiles : ∃ query, compiler.compile "User" (cardsBy "Who") = .ok query := ⟨_, rfl⟩
  obtain ⟨query, compiled⟩ := compiles
  have fails : compiler.compile "User" (cardsBy "Age") = .error failure := rfl
  obtain ⟨length, -, begun⟩ :=
    (compile_stage_for_operation compiler "User" (cardsBy "Who")).1 query compiled
  obtain ⟨stops, alike, -, logged⟩ :=
    (compile_stage_for_operation compiler "User" (cardsBy "Age")).2 failure fails
  obtain ⟨reached, first, stages, staged⟩ := begun 2
  obtain ⟨stage, here, made, operator⟩ := staged (.orderBy (.field "Who")) rfl
  obtain ⟨entries, -⟩ := logged Json ⟨Catalog.user, .insertion⟩ session 0 byAge rfl rfl rfl
  exact ⟨⟨query, reached, stage, compiled, length, first, stages, here, made, operator⟩, fails,
    (stops failure).mpr rfl, alike [.skip (.constant .null)], entries⟩

end DocQuery
