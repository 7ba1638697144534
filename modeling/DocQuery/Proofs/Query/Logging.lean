import DocQuery.Log.Logger
import DocQuery.Proofs.Query.Steps

/-!
# Logging while a session runs

The functions of a session give the entries that are to be logged beside their results. Here
are the programs that log while they run: each logs an entry when it comes to it, into a console
that knows its threshold, and could ask the console at any time what it would write. Every
program performs its function (`performs_run`): it has the same result over every console, and
adds to the console those of the function's entries that the console writes.
-/
namespace DocQuery

variable {τ : Type}

namespace Log

/-- A logger and what it has written. -/
structure Console where
  logger : Logger
  written : List Entry := []

/-- A console that was handed entries. -/
def Console.record (console : Console) (entries : List Entry) : Console :=
  { console with written := console.written ++ console.logger.written entries }

@[simp] theorem Console.record_nil (console : Console) : console.record [] = console := by
  simp [record, Logger.written]

@[simp] theorem Console.record_append (console : Console) (first second : List Entry) :
    (console.record first).record second = console.record (first ++ second) := by
  simp [record, Logger.written]

theorem Console.record_singleton (console : Console) (entry : Entry) :
    console.record [entry] =
      if console.logger.enabled entry.severity then
        { console with written := console.written ++ [entry] }
      else console := by
  rw [record, Logger.written, List.filter_cons, List.filter_nil]
  split <;> simp

/-- A program that logs while it runs. -/
abbrev Logging (α : Type) := StateM Console α

namespace Logging

variable {α β : Type}

/-- Whether entries of a severity are written. -/
def enabled (severity : Severity) : Logging Bool := do
  return (← get).logger.enabled severity

/-- Logs an entry. -/
def log (entry : Entry) : Logging Unit := do
  if ← enabled entry.severity then
    modify fun console => { console with written := console.written ++ [entry] }

/-- Logs an entry of a severity that the console is asked for before the entry is made. -/
def logIfEnabled (severity : Severity) (entry : Entry) : Logging Unit := do
  if ← enabled severity then log entry

/-- Logs entries in order. -/
def logAll : List Entry → Logging Unit
  | [] => pure ()
  | entry :: rest => do
    log entry
    logAll rest

/-- Over every console, a program has one result and logs some entries. -/
def Performs (program : Logging α) (result : α) (entries : List Entry) : Prop :=
  ∀ console, program.run console = (result, console.record entries)

theorem performs_pure (result : α) : Performs (pure result) result [] := by
  intro console
  rw [Console.record_nil]
  rfl

theorem performs_log (entry : Entry) : Performs (log entry) () [entry] := by
  intro console
  have runs : (log entry).run console =
      (if console.logger.enabled entry.severity then
        modify fun console => { console with written := console.written ++ [entry] }
      else pure () : Logging Unit).run console := rfl
  rw [runs, Console.record_singleton]
  cases console.logger.enabled entry.severity <;> rfl

/-- It makes no difference to ask first. -/
theorem performs_logIfEnabled (entry : Entry) :
    Performs (logIfEnabled entry.severity entry) () [entry] := by
  intro console
  have runs : (logIfEnabled entry.severity entry).run console =
      (if console.logger.enabled entry.severity then log entry else pure ()).run console := rfl
  rw [runs]
  cases asked : console.logger.enabled entry.severity with
  | true => exact performs_log entry console
  | false =>
    rw [Console.record_singleton, asked]
    rfl

theorem Performs.run_bind {first : Logging α} {result : α} {entries : List Entry}
    (performs : Performs first result entries) (next : α → Logging β) (console : Console) :
    (first >>= next).run console = (next result).run (console.record entries) := by
  rw [StateT.run_bind, performs console]
  rfl

theorem Performs.bind {first : Logging α} {next : α → Logging β} {result : α} {last : β}
    {entries more : List Entry} (performs : Performs first result entries)
    (behind : Performs (next result) last more) :
    Performs (first >>= next) last (entries ++ more) := by
  intro console
  rw [performs.run_bind, behind, Console.record_append]

/-- A program that ends with what it makes of a result logs nothing more. -/
theorem Performs.map {first : Logging α} {result : α} {entries : List Entry}
    (performs : Performs first result entries) (f : α → β) :
    Performs (first >>= fun result => pure (f result)) (f result) entries := by
  intro console
  rw [performs.run_bind]
  rfl

theorem Performs.congr {program : Logging α} {result same : α} {entries others : List Entry}
    (performs : Performs program result entries) (equal : result = same)
    (listed : entries = others) : Performs program same others := by
  subst equal listed
  exact performs

theorem performs_logAll (entries : List Entry) : Performs (logAll entries) () entries := by
  induction entries with
  | nil => exact performs_pure ()
  | cons entry rest ih => exact (performs_log entry).bind ih

end Logging
end Log

open Log (Logging)
open Log.Logging

/-! ## Items -/

/-- Runs processors in order, up to the first that fails, and logs its failure. -/
def Processor.runAllLogging : List (Processor τ) → τ → Logging (Processed τ)
  | [], entity => return { entity }
  | processor :: rest, entity => do
    let outcome := processor.run entity
    match outcome.failure with
    | some failure =>
      log (processor.failed failure)
      return { entity := outcome.entity, effects := outcome.effects, failure := some failure }
    | none =>
      let others ← runAllLogging rest outcome.entity
      return { others with effects := outcome.effects ++ others.effects }

theorem Processor.performs_runAll (processors : List (Processor τ)) (entity : τ) :
    (runAllLogging processors entity).Performs { runAll processors entity with entries := [] }
      (runAll processors entity).entries := by
  induction processors generalizing entity with
  | nil => exact performs_pure _
  | cons processor rest ih =>
    rw [runAllLogging, runAll]
    cases (processor.run entity).failure with
    | some failure => exact (performs_log _).map _
    | none => exact (ih _).map _

namespace Materializer

variable (m : Materializer τ)

/-- Makes the item of a document. -/
def materializeLogging (document : Json) : Logging (Made τ) :=
  if m.yieldsEntities then
    match m.type.decode document with
    | .error reason => return { item := .error (.materialization m.type.name reason) }
    | .ok entity => do
      let processed ← Processor.runAllLogging m.processors entity
      return {
        item := match processed.failure with
          | none => .ok (.entity processed.entity)
          | some failure => .error (.processor failure)
        effects := processed.effects }
  else return { item := .ok (.projection document) }

/-- Makes the item of a result. -/
def makeLogging : Except ExecutionError Json → Logging (Made τ)
  | .ok document => m.materializeLogging document
  | .error error => do
    log error.entry
    return { item := .error (.execution error) }

theorem performs_make (result : Except ExecutionError Json) :
    (m.makeLogging result).Performs { m.make result with entries := [] }
      (m.make result).entries := by
  cases result with
  | error error => exact (performs_log _).map _
  | ok document =>
    rw [makeLogging, make, materializeLogging, materialize]
    cases m.yieldsEntities with
    | false => exact performs_pure _
    | true =>
      cases m.type.decode document with
      | error reason => exact performs_pure _
      | ok entity =>
        exact (Processor.performs_runAll m.processors entity).map _

end Materializer

/-! ## Pulls -/

/-- Pulls one item from a cursor. -/
def Cursor.nextLogging (cursor : Cursor τ) : Logging (Pulled τ (Cursor τ)) :=
  if cursor.done then return { item := none, rest := cursor }
  else
    match cursor.remaining with
    | [] => do
      log cursor.completed
      return { item := none, rest := { cursor with done := true } }
    | result :: remaining => do
      let made ← cursor.materializer.makeLogging result
      let rest := match made.item with
        | .ok _ => { cursor with remaining, yielded := cursor.yielded + 1 }
        | .error _ => { cursor with remaining, done := true }
      return { item := some made.item, rest, effects := made.effects }

theorem Cursor.performs_next (cursor : Cursor τ) :
    cursor.nextLogging.Performs { cursor.next with entries := [] } cursor.next.entries := by
  obtain ⟨m, remaining, yielded, ended⟩ := cursor
  cases ended with
  | true => exact performs_pure _
  | false =>
    cases remaining with
    | nil => exact (performs_log _).map _
    | cons result rest => exact (m.performs_make result).map _

/-- Pulls one item from an iteration. -/
def Iteration.nextLogging (iteration : Iteration τ) : Logging (Pulled τ (Iteration τ)) :=
  match iteration.pending, iteration.cursor with
  | some error, cursor =>
    return { item := some (.error error), rest := { cursor }, transition := .become .faulted }
  | none, none => return { item := none, rest := iteration }
  | none, some cursor => do
    let pulled ← cursor.nextLogging
    let (rest, transition) : Iteration τ × Transition :=
      match pulled.item with
      | some (.ok _) => ({ cursor := some pulled.rest }, .keep)
      | some (.error _) => ({}, .become .faulted)
      | none => ({}, .become .exhausted)
    return { pulled with rest, transition }

theorem Iteration.performs_next (iteration : Iteration τ) :
    iteration.nextLogging.Performs { iteration.next with entries := [] }
      iteration.next.entries := by
  rcases iteration with ⟨_ | error, _ | cursor⟩
  · exact performs_pure _
  · exact cursor.performs_next.map _
  · exact performs_pure _
  · exact performs_pure _

/-- Pulls one item from a stream. -/
def Stream.nextLogging : Stream τ → Logging (Pulled τ (Stream τ))
  | .refused error =>
    return { item := some (.error error), rest := .ending, transition := .become .faulted }
  | .running _ [] | .faulted _ [] | .ending => return finish
  | .running materializer (result :: remaining) => do
    let made ← materializer.makeLogging result
    let (rest, transition) : Stream τ × Transition :=
      match made.item with
      | .ok _ => (.running materializer remaining, .keep)
      | .error _ => (.faulted materializer remaining, .become .faulted)
    return { item := some made.item, rest, transition, effects := made.effects }
  | .faulted materializer (result :: _) => do
    let made ← materializer.makeLogging result
    return { finish with effects := made.effects }
  | .ended => return { item := none, rest := .ended }

theorem Stream.performs_next (stream : Stream τ) :
    stream.nextLogging.Performs { stream.next with entries := [] } stream.next.entries := by
  match stream with
  | .refused _ | .running _ [] | .faulted _ [] | .ending | .ended => exact performs_pure _
  | .running m (result :: _) => exact (m.performs_make result).map _
  | .faulted m (result :: _) => exact (m.performs_make result).map _

namespace Enumeration

/-- Pulls one item. -/
def nextLogging : Enumeration τ → Logging (Pulled τ (Enumeration τ))
  | .cursor c => do
    let pulled ← c.nextLogging
    return { pulled with rest := .cursor pulled.rest }
  | .iteration i => do
    let pulled ← i.nextLogging
    return { pulled with rest := .iteration pulled.rest }
  | .stream s => do
    let pulled ← s.nextLogging
    return { pulled with rest := .stream pulled.rest }

theorem performs_next (enumeration : Enumeration τ) :
    enumeration.nextLogging.Performs { enumeration.next with entries := [] }
      enumeration.next.entries := by
  cases enumeration with
  | cursor c => exact c.performs_next.map _
  | iteration i => exact i.performs_next.map _
  | stream s => exact s.performs_next.map _

/-- Pulls at most the given number of times, until the end or an item to stop at. -/
def pullAllLogging (stop : ItemResult τ → Bool) :
    Nat → Enumeration τ → QueryState → Logging (Drained τ)
  | 0, _, state => return ⟨[], state, [], []⟩
  | pulls + 1, enumeration, state => do
    let pulled ← enumeration.nextLogging
    let state := pulled.transition.apply state
    match pulled.item with
    | none => return ⟨[], state, [], pulled.effects⟩
    | some item =>
      if stop item then return ⟨[item], state, [], pulled.effects⟩
      else
        let others ← pullAllLogging stop pulls pulled.rest state
        return { others with
          items := item :: others.items
          effects := pulled.effects ++ others.effects }

theorem performs_pullAll (stop : ItemResult τ → Bool) (pulls : Nat) (enumeration : Enumeration τ)
    (state : QueryState) :
    (pullAllLogging stop pulls enumeration state).Performs
      { enumeration.pullAll stop pulls state with entries := [] }
      (enumeration.pullAll stop pulls state).entries := by
  induction pulls generalizing enumeration state with
  | zero => exact performs_pure _
  | succ pulls ih =>
    intro console
    rw [pullAllLogging, pullAll, enumeration.performs_next.run_bind]
    cases enumeration.next.item with
    | none => rfl
    | some item =>
      dsimp only
      cases stop item with
      | true => rfl
      | false =>
        simp only [Bool.false_eq_true, if_false]
        rw [(ih _ _).run_bind, Log.Console.record_append]
        rfl

end Enumeration

/-! ## Commands -/

/-- Compiles a query. The text of its pipeline is made only if it is going to be written. -/
def Environment.buildLogging (env : Environment τ) (query : Query) :
    Logging (Except BuildFailure CompiledQuery) :=
  match env.build query with
  | .error failure => do
    log (.ofBuild env.type.name query.config (.error failure))
    return .error failure
  | .ok compiled => do
    logIfEnabled (if query.config.logPipelines then .info else .trace)
      (.ofBuild env.type.name query.config (.ok compiled))
    return .ok compiled

theorem Environment.performs_build (env : Environment τ) (query : Query) :
    (env.buildLogging query).Performs (env.build query) [env.buildEntry query] := by
  rw [buildLogging, buildEntry]
  cases env.build query with
  | error failure => exact (performs_log _).map _
  | ok compiled =>
    exact (performs_logIfEnabled (.ofBuild env.type.name query.config (.ok compiled))).map _

namespace Session

variable (env : Environment τ) (session : Session τ)

/-- Starts a query. -/
def startLogging (query : Query) : Logging (Started τ) := do
  let closed := (session.chainOf query).close
  let session := session.setChain query closed
  match ← env.buildLogging query with
  | .error failure => return ⟨session, .error (.compile failure.error), []⟩
  | .ok compiled =>
    log (.ofExecution env.type.name compiled)
    let (results, store) := session.store.aggregate env.sorter compiled.pipeline
    let materializer : Materializer τ :=
      { type := env.type
        yieldsEntities := compiled.yieldsEntities
        processors := closed.processors }
    return ⟨{ session with store }, .ok (materializer, results), []⟩

theorem performs_start (query : Query) :
    (session.startLogging env query).Performs { session.start env query with entries := [] }
      (session.start env query).entries := by
  intro console
  rw [startLogging, start, (env.performs_build query).run_bind]
  cases env.build query with
  | error failure => rfl
  | ok compiled =>
    simp only
    rw [(performs_log _).run_bind, Log.Console.record_append]
    rfl

/-- Starts a bare cursor. -/
def executeLogging (id : Nat) (query : Query) : Logging (Reply τ) := do
  let started ← session.startLogging env query
  logAll (startEntries started.start)
  return match Cursor.ofStart started.start with
    | .ok cursor =>
      { session := started.session.addPull id (.cursor cursor)
        answer := .pull started.session.pulls.length }
    | .error error => { session := started.session, answer := .failed error }

theorem performs_execute (id : Nat) (query : Query) :
    (session.executeLogging env id query).Performs
      { session.execute env id query with entries := [] }
      (session.execute env id query).entries := by
  have started := session.performs_start env query
  refine (started.bind ((performs_logAll _).map _)).congr ?_ ?_
  · rw [execute]
    simp only
    cases Cursor.ofStart (session.start env query).start <;> rfl
  · rw [execute]
    simp only
    cases Cursor.ofStart (session.start env query).start <;> rfl

/-- Starts an iteration. -/
def startIterationLogging (id : Nat) (query : Query) : Logging (Session τ × Iteration τ) := do
  let started ← session.startLogging env query
  logAll (startEntries started.start)
  return (started.session.setState id (Iteration.startState started.start),
    Iteration.ofStart started.start)

theorem performs_startIteration (id : Nat) (query : Query) :
    let started := session.startIteration env id query
    (session.startIterationLogging env id query).Performs (started.1, started.2.1) started.2.2 :=
  (session.performs_start env query).bind ((performs_logAll _).map _)

/-- Starts a stream. -/
def startStreamLogging (id : Nat) (query : Query) : Logging (Session τ × Stream τ) := do
  let started ← session.startLogging env query
  return (started.session.setState id .enumerating, Stream.ofStart started.start)

theorem performs_startStream (id : Nat) (query : Query) :
    let started := session.startStream env id query
    (session.startStreamLogging env id query).Performs (started.1, started.2.1) started.2.2 :=
  (session.performs_start env query).map _

/-- Pulls from an enumeration. -/
def pullNextLogging (id : Nat) (pull : Pull τ) : Logging (Reply τ) := do
  let pulled ← pull.enumeration.nextLogging
  let state := pulled.transition.apply (session.stateOf pull.query)
  return {
    session :=
      { session.setState pull.query state with
        pulls := session.pulls.set id { pull with enumeration := pulled.rest }
        journal := session.journal.applyAll pulled.effects }
    answer := .item pulled.item }

theorem performs_pullNext (id : Nat) (pull : Pull τ) :
    (session.pullNextLogging id pull).Performs { session.pullNext id pull with entries := [] }
      (session.pullNext id pull).entries :=
  pull.enumeration.performs_next.map _

/-- Drains an enumeration that was just started from a query. -/
def drainLogging (id : Nat) (stop : ItemResult τ → Bool) (enumeration : Enumeration τ)
    (answer : List (ItemResult τ) → Answer τ) : Logging (Reply τ) := do
  let pulls := enumeration.remaining.length + 2
  let drained ← enumeration.pullAllLogging stop pulls (session.stateOf id)
  return {
    session :=
      { session.setState id drained.state with
        journal := session.journal.applyAll drained.effects }
    answer := answer drained.items }

/-- A drain gets the entries of the start handed over; here they are logged already. -/
theorem performs_drain (id : Nat) (stop : ItemResult τ → Bool) (enumeration : Enumeration τ)
    (entries : List Log.Entry) (answer : List (ItemResult τ) → Answer τ) :
    (session.drainLogging id stop enumeration answer).Performs
      { session.drain id stop enumeration entries answer with entries := [] }
      (enumeration.drain stop (session.stateOf id)).entries :=
  (enumeration.performs_pullAll stop _ _).map _

/-- Drains a new iteration up to the first item that does not fit. -/
def collectLogging {β : Type} (id : Nat) (query : Query) (read : ItemResult τ → Except QueryError β)
    (answer : List β → Answer τ) : Logging (Reply τ) := do
  let (session, iteration) ← session.startIterationLogging env id query
  session.drainLogging id (fun item => (read item).toBool == false) (.iteration iteration)
    fun items =>
      match items.mapM read with
      | .ok values => answer values
      | .error error => .failed error

theorem performs_collect {β : Type} (id : Nat) (query : Query)
    (read : ItemResult τ → Except QueryError β) (answer : List β → Answer τ) :
    (session.collectLogging env id query read answer).Performs
      { session.collect env id query read answer with entries := [] }
      (session.collect env id query read answer).entries :=
  (session.performs_startIteration env id query).bind (performs_drain _ id _ _ _ _)

/-- Drains a new iteration to its end. -/
def iterateAllLogging (id : Nat) (query : Query) : Logging (Reply τ) := do
  let (session, iteration) ← session.startIterationLogging env id query
  session.drainLogging id (fun _ => false) (.iteration iteration) .items

theorem performs_iterateAll (id : Nat) (query : Query) :
    (session.iterateAllLogging env id query).Performs
      { session.iterateAll env id query with entries := [] }
      (session.iterateAll env id query).entries :=
  (session.performs_startIteration env id query).bind (performs_drain _ id _ _ _ _)

/-- Drains a new stream to its end. -/
def streamAllLogging (id : Nat) (query : Query) : Logging (Reply τ) := do
  let (session, stream) ← session.startStreamLogging env id query
  session.drainLogging id (fun _ => false) (.stream stream) .items

theorem performs_streamAll (id : Nat) (query : Query) :
    (session.streamAllLogging env id query).Performs
      { session.streamAll env id query with entries := [] }
      (session.streamAll env id query).entries :=
  (session.performs_startStream env id query).bind (performs_drain _ id _ _ _ _)

/-- Adds a processor to the chain of a query, unless the chain is sealed. -/
def registerLogging (query : Query) (processor : Processor τ) : Logging (Reply τ) :=
  match (session.chainOf query).add processor with
  | .ok chain => do
    log (ProcessorChain.registered processor)
    return { session := session.setChain query chain, answer := .done }
  | .error error => return { session, answer := .failed error }

theorem performs_register (query : Query) (processor : Processor τ) :
    (session.registerLogging query processor).Performs
      { session.register query processor with entries := [] }
      (session.register query processor).entries := by
  rw [registerLogging, register]
  cases (session.chainOf query).add processor with
  | ok chain => exact (performs_log _).map _
  | error error => exact performs_pure _

/-- Carries out a command about a query. -/
def withQueryLogging (id : Nat) (act : Query → Logging (Reply τ)) : Logging (Reply τ) :=
  match session.queries[id]? with
  | some query => act query
  | none => return { session, answer := .unknown }

theorem performs_withQuery (id : Nat) {program : Query → Logging (Reply τ)}
    {act : Query → Reply τ}
    (performs : ∀ query, (program query).Performs { act query with entries := [] }
      (act query).entries) :
    (session.withQueryLogging id program).Performs
      { session.withQuery id act with entries := [] } (session.withQuery id act).entries := by
  rw [withQueryLogging, withQuery]
  cases session.queries[id]? with
  | some query => exact performs query
  | none => exact performs_pure _

/-- Carries out a command. The commands that are not listed log nothing. -/
def stepLogging : Command τ → Logging (Reply τ)
  | .compile id => session.withQueryLogging id fun query => do
    let outcome ← env.buildLogging query
    return {
      session
      answer := match outcome with
        | .ok compiled => .compiled compiled
        | .error failure => .failed (.compile failure.error) }
  | .execute id => session.withQueryLogging id fun query => session.executeLogging env id query
  | .iterate id => session.withQueryLogging id fun query => do
    let (session, iteration) ← session.startIterationLogging env id query
    return {
      session := session.addPull id (.iteration iteration)
      answer := .pull session.pulls.length }
  | .stream id => session.withQueryLogging id fun query => do
    let (session, stream) ← session.startStreamLogging env id query
    return {
      session := session.addPull id (.stream stream)
      answer := .pull session.pulls.length }
  | .next id =>
    match session.pulls[id]? with
    | some pull => session.pullNextLogging id pull
    | none => return { session, answer := .unknown }
  | .toList id => session.withQueryLogging id fun query =>
    session.collectLogging env id query (·) .list
  | .toEntities id => session.withQueryLogging id fun query =>
    session.collectLogging env id query (entityOf env.type) .entities
  | .toProjections id => session.withQueryLogging id fun query =>
    session.collectLogging env id query (projectionOf env.type) .projections
  | .iterateAll id => session.withQueryLogging id fun query =>
    session.iterateAllLogging env id query
  | .streamAll id => session.withQueryLogging id fun query =>
    session.streamAllLogging env id query
  | .register id processor => session.withQueryLogging id fun query =>
    session.registerLogging query processor
  | command => return session.step env command

/-- One command gives the same over every console, and logs its entries. -/
theorem performs_step (command : Command τ) :
    (session.stepLogging env command).Performs { session.step env command with entries := [] }
      (session.step env command).entries := by
  cases command with
  | append id _ | duplicate id | configure id _ =>
    exact withQuery_elim (motive := fun reply =>
      (pure reply : Logging (Reply τ)).Performs { reply with entries := [] } reply.entries)
      id _ (performs_pure _) fun query _ => performs_pure _
  | root _ _ | track _ | clearTracker | insert _ | setFailure _ | aggregate _
  | aggregateStream _ => exact performs_pure _
  | compile id =>
    exact session.performs_withQuery id fun query => (env.performs_build query).map _
  | execute id =>
    exact session.performs_withQuery id fun query => session.performs_execute env id query
  | iterate id =>
    exact session.performs_withQuery id fun query =>
      (session.performs_startIteration env id query).map _
  | stream id =>
    exact session.performs_withQuery id fun query =>
      (session.performs_startStream env id query).map _
  | next id =>
    rw [stepLogging, step]
    cases session.pulls[id]? with
    | some pull => exact session.performs_pullNext id pull
    | none => exact performs_pure _
  | toList id | toEntities id | toProjections id =>
    exact session.performs_withQuery id fun query => session.performs_collect env id query _ _
  | iterateAll id =>
    exact session.performs_withQuery id fun query => session.performs_iterateAll env id query
  | streamAll id =>
    exact session.performs_withQuery id fun query => session.performs_streamAll env id query
  | register id processor =>
    exact session.performs_withQuery id fun query => session.performs_register query processor

/-- Carries out commands in order. -/
def runLogging (session : Session τ) : List (Command τ) → Logging (Session τ × List (Answer τ))
  | [] => return (session, [])
  | command :: rest => do
    let reply ← session.stepLogging env command
    let (last, answers) ← runLogging reply.session rest
    return (last, reply.answer :: answers)

/-- A run gives the same over every console, and logs the entries of its commands. -/
theorem performs_run (commands : List (Command τ)) :
    let run := session.run env commands
    (session.runLogging env commands).Performs (run.1, run.2.map Prod.fst)
      (run.2.flatMap Prod.snd) := by
  induction commands generalizing session with
  | nil => exact performs_pure _
  | cons command rest ih =>
    exact (session.performs_step env command).bind ((ih _).map _)

end Session
end DocQuery
