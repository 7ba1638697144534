import DocQuery.Proofs.Query.Collecting

/-!
# Accounting for executions

A store counts the pipelines that it was handed. Of the enumerations in a session, those of
queries that compile make up the count, together with the pipelines that were handed over
directly; the others give one error, of a kind that none of the counted ones gives
(`executions_of_run`).
-/
namespace DocQuery

variable {τ : Type}

/-! ## What a command gives that enumerates -/

/-- A command that enumerates a query starts a cursor, an iteration or a stream, or drains one. -/
theorem Command.enumerates_cases {command : Command τ} {id : Nat}
    (enumerates : command.enumerates = some id) :
    command = .execute id ∨ (∃ mode : Mode, command = mode.starting id) ∨
      (∃ mode : Mode, command = mode.draining id) ∨
        ∃ reading : Reading, command = reading.command id := by
  cases command with
  | execute id => exact .inl (congrArg _ (Option.some.inj enumerates))
  | iterate id =>
    cases enumerates
    exact .inr (.inl ⟨.iteration, rfl⟩)
  | stream id =>
    cases enumerates
    exact .inr (.inl ⟨.stream, rfl⟩)
  | iterateAll id =>
    cases enumerates
    exact .inr (.inr (.inl ⟨.iteration, rfl⟩))
  | streamAll id =>
    cases enumerates
    exact .inr (.inr (.inl ⟨.stream, rfl⟩))
  | toList id =>
    cases enumerates
    exact .inr (.inr (.inr ⟨.list, rfl⟩))
  | toEntities id =>
    cases enumerates
    exact .inr (.inr (.inr ⟨.entities, rfl⟩))
  | toProjections id =>
    cases enumerates
    exact .inr (.inr (.inr ⟨.projections, rfl⟩))
  | _ => cases enumerates

/-- The items that an answer shows, or the error that it shows in their place. -/
def Answer.shown : Answer τ → List (ItemResult τ)
  | .items given => given
  | .list given => given.map .ok
  | .entities values => values.map (.ok <| .entity ·)
  | .projections documents => documents.map (.ok <| .projection ·)
  | .failed error => [.error error]
  | _ => []

/-- The cursor of a start is over the results that it has prepared. -/
theorem Prepares.cursor {m : Materializer τ} {start : Start τ}
    {results : Except QueryError ResultStream} (prepares : Prepares m start results) :
    Cursor.ofStart start =
      results.map fun results => { materializer := m, remaining := results } := by
  cases prepares <;> rfl

namespace Session

variable (env : Environment τ) (session : Session τ)

/-- What a command that enumerates gives: what pulls from the enumeration give that it answers
with, in the midst of any commands, or what the answer shows. -/
def Gives (command : Command τ) (items : List (ItemResult τ)) : Prop :=
  let reply := session.step env command
  match reply.answer with
  | .pull id => ∀ commands : List (Command τ),
    let pulls := pullsFrom id commands
    answersTo id commands (reply.session.run env commands).2 =
      (items.map some ++ List.replicate pulls none).take pulls
  | answer => answer.shown = items

variable {session} {id : Nat} {query : Query} (found : session.queries[id]? = some query)

include found

theorem gives_execute : session.Gives env (.execute id) (session.reference env query) := by
  have begins := (session.prepares_start env query).cursor
  have stepped : session.step env (.execute id) = session.execute env id query := by
    rw [step, withQuery, found]
  rw [Gives, stepped, execute, reference]
  simp only [begins]
  cases session.resultsOf env query with
  | error error => rfl
  | ok results =>
    intro commands
    have follows := Cursor.follows_scriptOf (session.materializer env query) 0 results
    simp only [← Cursor.items_scriptOf _ 0, ← Script.answers_eq]
    exact answersTo_run env List.getElem?_concat_length follows commands

theorem gives_starting (mode : Mode) :
    session.Gives env (mode.starting id) (session.reference env query) := by
  obtain ⟨entries, stepped⟩ := step_starting env mode found
  have answers := answersTo_run_starting env mode found
  rw [Gives]
  rw [stepped] at answers ⊢
  exact answers

theorem gives_draining (mode : Mode) :
    session.Gives env (mode.draining id) (session.reference env query) := by
  obtain ⟨entries, stepped⟩ := step_draining env mode found
  rw [Gives, stepped]
  rfl

theorem gives_reading (reading : Reading) :
    session.Gives env (reading.command id)
      (reading.answer env.type (session.reference env query)).shown := by
  obtain ⟨entries, stepped⟩ := step_reading env found reading
  rw [Gives, stepped]
  cases reading with
  | list | entities | projections =>
    rw [Reading.answer]
    generalize List.mapM (m := Except QueryError) _ (session.reference env query) = read
    cases read <;> rfl

end Session

/-! ## Errors that are raised before the store is reached, and others -/

theorem Materializer.isCompileTime_of_itemOf (m : Materializer τ)
    {result : Except ExecutionError Json} {error : QueryError}
    (failed : m.itemOf result = .error error) : error.isCompileTime = false := by
  cases result with
  | error cause =>
    cases failed
    rfl
  | ok document =>
    rw [itemOf] at failed
    split at failed
    · cases decoded : m.type.decode document with
      | error reason =>
        rw [entityIn, decoded] at failed
        cases failed
        rfl
      | ok entity =>
        rw [m.entityIn_of_decoded decoded] at failed
        cases passed : Processor.passAll m.processors entity with
        | error failure =>
          rw [passed] at failed
          cases failed
          rfl
        | ok changed =>
          rw [passed] at failed
          cases failed
    · cases failed

theorem Answer.eq_error_of_mem_shown {β : Type} {answer : List β → Answer τ}
    (shows : ∀ values error, .error error ∉ (answer values).shown)
    {read : Except QueryError (List β)} {error : QueryError}
    (listed : .error error ∈ (Answer.ofRead answer read).shown) : read = .error error := by
  cases read with
  | error cause =>
    cases List.mem_singleton.mp listed
    rfl
  | ok values => exact (shows values error listed).elim

namespace Reading

/-- An answer shows no errors but those of items and those of reading them. -/
theorem isCompileTime_of_mem_shown (type : EntityType τ) (reading : Reading)
    {items : List (ItemResult τ)}
    (late : ∀ error, .error error ∈ items → error.isCompileTime = false) {error : QueryError}
    (listed : .error error ∈ (reading.answer type items).shown) : error.isCompileTime = false := by
  cases reading with
  | list =>
    have failed := Answer.eq_error_of_mem_shown (by simp [Answer.shown]) listed
    obtain ⟨item, given, same⟩ := mapM_error failed
    exact late error (same ▸ given)
  | entities =>
    have failed := Answer.eq_error_of_mem_shown (by simp [Answer.shown]) listed
    obtain ⟨item, given, refused⟩ := mapM_error failed
    rcases item with _ | _ | _
    · cases refused
      exact late error given
    · cases refused
    · cases refused
      rfl
  | projections =>
    have failed := Answer.eq_error_of_mem_shown (by simp [Answer.shown]) listed
    obtain ⟨item, given, refused⟩ := mapM_error failed
    rcases item with _ | _ | _
    · cases refused
      exact late error given
    · cases refused
      rfl
    · cases refused

theorem shown_answer_of_failed (type : EntityType τ) (reading : Reading) (error : QueryError) :
    (reading.answer type [.error error]).shown = [.error error] := by
  cases reading <;> rfl

end Reading

namespace Session

variable (env : Environment τ) {session : Session τ}

theorem reference_of_refused {query : Query} {failure : BuildFailure}
    (refused : env.build query = .error failure) :
    session.reference env query = [.error (.compile failure.error)] := by
  rw [reference, resultsOf, refused]

theorem isCompileTime_of_mem_reference {query : Query} {compiled : CompiledQuery}
    (built : env.build query = .ok compiled) {error : QueryError}
    (listed : .error error ∈ session.reference env query) : error.isCompileTime = false := by
  rw [reference, resultsOf, built] at listed
  simp only at listed
  cases outcome : session.store.results env.sorter compiled.pipeline with
  | error cause =>
    rw [outcome] at listed
    cases List.mem_singleton.mp listed
    rfl
  | ok results =>
    rw [outcome] at listed
    obtain ⟨result, -, failed⟩ := List.mem_map.mp (mem_of_mem_cutAfter listed)
    exact Materializer.isCompileTime_of_itemOf _ failed

/-- What an enumeration gives are the items that the query stands for, or what a call that
collects them makes of them. -/
theorem gives_of_enumerated {command : Command τ} {query : Query}
    (enumerates : session.enumerated command = some query) :
    session.Gives env command (session.reference env query) ∨
      ∃ reading : Reading, session.Gives env command
        (reading.answer env.type (session.reference env query)).shown := by
  obtain ⟨id, named, found⟩ := Option.bind_eq_some_iff.mp enumerates
  rcases Command.enumerates_cases named with rfl | ⟨mode, rfl⟩ | ⟨mode, rfl⟩ | ⟨reading, rfl⟩
  · exact .inl (gives_execute env found)
  · exact .inl (gives_starting env found mode)
  · exact .inl (gives_draining env found mode)
  · exact .inr ⟨reading, gives_reading env found reading⟩

/-! ## Counting executions -/

/-- A command makes the store execute a pipeline that it hands over, or that it enumerates. -/
theorem executions_step (command : Command τ) :
    (session.step env command).session.store.executions =
      session.store.executions + (if command.isDirect then 1 else 0) +
        (session.enumerated command).toList.countP fun query => (env.build query).toBool := by
  cases enumerates : session.enumerated command with
  | some query =>
    have indirect : command.isDirect = false := by
      cases command <;> first | rfl | cases enumerates
    obtain ⟨queries, pulls, journal, stepped⟩ := step_enumerating env enumerates
    rw [stepped, indirect, Option.toList_some, List.countP_singleton]
    exact session.executions_start env query
  | none => exact (step_unenumerating env enumerates).2

/-- A run makes the store execute the pipelines that are handed over and those of the queries
enumerated in it that compile. -/
theorem executions_run (commands : List (Command τ)) :
    (session.run env commands).1.store.executions =
      session.store.executions + commands.countP Command.isDirect +
        (session.enumeratedIn env commands).countP fun query => (env.build query).toBool := by
  induction commands generalizing session with
  | nil => rfl
  | cons command commands ih =>
    have head : (session.step env command).session.store.executions = _ :=
      executions_step env command
    have tail : (session.run env (command :: commands)).1.store.executions = _ := ih
    rw [tail, head, List.countP_cons, enumeratedIn, List.countP_append]
    omega

/-- The count of a store is that of the pipelines which were handed over directly and of the
enumerations of queries that compile, whatever failures the store was given. An enumeration of
another query gives one error, raised before the store is reached; those of queries that
compile give no such error. -/
theorem executions_of_run (env : Environment τ) (store : Store) (mapping : FieldMapping) (config : Config)
    (commands : List (Command τ)) :
    let fresh : Session τ := .ofStore store mapping config
    let run := fresh.run env commands
    run.1.store.executions =
      store.executions + commands.countP Command.isDirect +
        (fresh.enumeratedIn env commands).countP (fun query => (env.build query).toBool) ∧
    ∀ command query, run.1.enumerated command = some query →
      ∃ items, run.1.Gives env command items ∧
        match env.build query with
        | .error failure =>
          let error := QueryError.compile failure.error
          items = [.error error] ∧ error.isCompileTime = true
        | .ok _ => ∀ error, .error error ∈ items → error.isCompileTime = false := by
  intro fresh run
  refine ⟨executions_run env commands, ?_⟩
  intro command query enumerates
  cases built : env.build query with
  | error failure =>
    have refused : run.1.reference env query = _ := reference_of_refused env built
    rcases gives_of_enumerated env enumerates with gives | ⟨reading, gives⟩
    · rw [refused] at gives
      exact ⟨_, gives, rfl, rfl⟩
    · rw [refused, reading.shown_answer_of_failed] at gives
      exact ⟨_, gives, rfl, rfl⟩
  | ok compiled =>
    have late : ∀ error, .error error ∈ run.1.reference env query → error.isCompileTime = false :=
      fun _ => isCompileTime_of_mem_reference env built
    rcases gives_of_enumerated env enumerates with gives | ⟨reading, gives⟩
    · exact ⟨_, gives, late⟩
    · exact ⟨_, gives, fun _ => reading.isCompileTime_of_mem_shown env.type late⟩

/-- A pipeline is handed over, a query that does not compile is enumerated, and another one is
enumerated twice, at last from a store that refuses everything. -/
theorem executions_of_run_broken :
    let fresh : Session Json := .ofStore brokenStore unmapped {}
    let run := fresh.run plainDocuments [.append 0 (.take (.constant .null)), .aggregateStream [],
      .toList 1, .iterate 0, .setFailure (some (.onAggregate "down")), .stream 0]
    run.1.store.executions = 3 ∧
      (∃ query items error, run.1.enumerated (.stream 1) = some query ∧
        run.1.Gives plainDocuments (.stream 1) items ∧
        items = [.error error] ∧ error.isCompileTime = true) ∧
      ∃ query items, run.1.enumerated (.toList 0) = some query ∧
        run.1.Gives plainDocuments (.toList 0) items ∧
        ∀ error, .error error ∈ items → error.isCompileTime = false := by
  intro fresh run
  obtain ⟨executions, enumerations⟩ := executions_of_run plainDocuments brokenStore unmapped {}
    [.append 0 (.take (.constant .null)), .aggregateStream [], .toList 1, .iterate 0,
      .setFailure (some (.onAggregate "down")), .stream 0]
  have first : ∃ query failure, run.1.enumerated (.stream 1) = some query ∧
      plainDocuments.build query = .error failure := ⟨_, _, rfl, rfl⟩
  obtain ⟨query, failure, found, refused⟩ := first
  obtain ⟨items, gives, single⟩ := enumerations (.stream 1) query found
  rw [refused] at single
  have second : ∃ query compiled, run.1.enumerated (.toList 0) = some query ∧
      plainDocuments.build query = .ok compiled := ⟨_, _, rfl, rfl⟩
  obtain ⟨other, compiled, known, built⟩ := second
  obtain ⟨others, collects, late⟩ := enumerations (.toList 0) other known
  rw [built] at late
  exact ⟨executions, ⟨query, items, _, found, gives, single⟩, other, others, known, collects, late⟩

end Session
end DocQuery
