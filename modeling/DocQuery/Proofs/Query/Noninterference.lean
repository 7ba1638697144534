import DocQuery.Proofs.Query.Completion
import DocQuery.Proofs.Query.Logging

/-!
# Logging changes nothing

What a session gives does not depend on what is logged. A threshold decides which of its
entries are written and nothing else. Nor does it matter whether a configuration announces
pipelines: a session in which none does gives the same, and its entries differ only in the
severity of those for compiled pipelines (`logging_changes_nothing`).
-/
namespace DocQuery

variable {τ : Type}

/-! ## Configurations that announce no pipelines -/

/-- A configuration that does not announce pipelines. -/
def Config.muted (config : Config) : Config :=
  { config with logPipelines := false }

theorem Compiler.compileFrom_muted (compiler : Compiler) (position : Nat) (scope : Scope)
    (operations : List Operation) :
    { compiler with config := compiler.config.muted }.compileFrom position scope operations =
      compiler.compileFrom position scope operations := by
  induction operations generalizing position scope with
  | nil => rfl
  | cons operation rest ih =>
    have lowers : { compiler with config := compiler.config.muted }.lower scope operation =
        compiler.lower scope operation := rfl
    rw [compileFrom, compileFrom, lowers]
    simp only [ih]

def Query.muted (query : Query) : Query :=
  { query with config := query.config.muted }

theorem Environment.build_muted (env : Environment τ) (query : Query) :
    env.build query.muted = env.build query :=
  Compiler.compileFrom_muted ⟨.standard, query.mapping, query.config⟩ 0 (.entity env.type.name)
    query.chain.operations

/-- A command whose configuration does not announce pipelines. -/
def Command.muted : Command τ → Command τ
  | .root mapping config => .root mapping config.muted
  | .configure query config => .configure query config.muted
  | command => command

/-- The query that a command compiles. -/
def Command.compiles : Command τ → Option Nat
  | .compile query => some query
  | command => command.enumerates

/-! ## Entries for compiled pipelines -/

namespace Log.Entry

/-- The entry, with the severity that a configuration gives it if it is for a compiled
pipeline. -/
def announced (config : Config) (entry : Entry) : Entry :=
  if entry.event = Event.pipelineCompiled.name then
    { entry with severity := if config.logPipelines then .info else .trace }
  else entry

theorem announced_of_closes (config : Config) {entry : Entry} (closes : entry.closes = true) :
    entry.announced config = entry := by
  refine if_neg fun compiled => ?_
  rw [Entry.closes, compiled] at closes
  exact absurd closes (by decide)

theorem announced_announced (config other : Config) (entry : Entry) :
    (entry.announced other).announced config = entry.announced config := by
  unfold announced
  split <;> simp_all

theorem map_announced_of_closes (config : Config) {entries : List Entry}
    (closes : ∀ entry ∈ entries, entry.closes = true) :
    entries.map (announced config) = entries :=
  (List.map_congr_left fun entry listed => announced_of_closes config (closes entry listed)).trans
    (List.map_id _)

end Log.Entry

theorem Environment.buildEntry_muted (env : Environment τ) (query : Query) :
    env.buildEntry query = (env.buildEntry query.muted).announced query.config := by
  rw [buildEntry, buildEntry, env.build_muted]
  cases env.build query with
  | error failure =>
    have other : Log.Event.compileFailed.name ≠ Log.Event.pipelineCompiled.name := by decide
    exact (if_neg other).symm
  | ok compiled => exact (if_pos rfl).symm

theorem closes_startEntries (start : Start τ) {entry : Log.Entry}
    (listed : entry ∈ startEntries start) : entry.closes = true := by
  unfold startEntries at listed
  split at listed
  · cases List.mem_singleton.mp listed
    rfl
  · cases listed

theorem Materializer.closes_make (m : Materializer τ) (result : Except ExecutionError Json)
    {entry : Log.Entry} (listed : entry ∈ (m.make result).entries) : entry.closes = true := by
  rw [m.entries_make] at listed
  exact ((m.logs_entriesOf result).closes listed).1

theorem Cursor.closes_next (cursor : Cursor τ) {entry : Log.Entry}
    (listed : entry ∈ cursor.next.entries) : entry.closes = true := by
  obtain ⟨m, remaining, yielded, ended⟩ := cursor
  cases ended with
  | true => cases listed
  | false =>
    cases remaining with
    | nil =>
      cases List.mem_singleton.mp listed
      rfl
    | cons result rest => exact m.closes_make result listed

namespace Enumeration

/-- Pulls log nothing but how an enumeration ends. -/
theorem closes_next (enumeration : Enumeration τ) {entry : Log.Entry}
    (listed : entry ∈ enumeration.next.entries) : entry.closes = true := by
  match enumeration with
  | .cursor c | .iteration ⟨none, some c⟩ => exact c.closes_next listed
  | .iteration ⟨some _, _⟩ | .iteration ⟨none, none⟩ => cases listed
  | .stream (.running m (result :: _)) | .stream (.faulted m (result :: _)) =>
    exact m.closes_make result listed
  | .stream (.running _ []) | .stream (.faulted _ []) | .stream (.refused _) | .stream .ending
  | .stream .ended => cases listed

theorem closes_pullAll (stop : ItemResult τ → Bool) {pulls : Nat} {enumeration : Enumeration τ}
    {state : QueryState} {entry : Log.Entry}
    (listed : entry ∈ (enumeration.pullAll stop pulls state).entries) : entry.closes = true := by
  induction pulls generalizing enumeration state with
  | zero => cases listed
  | succ pulls ih =>
    rw [pullAll] at listed
    dsimp only at listed
    split at listed
    · exact enumeration.closes_next listed
    · split at listed
      · exact enumeration.closes_next listed
      · rcases List.mem_append.mp listed with here | later
        · exact enumeration.closes_next here
        · exact ih later

end Enumeration

/-- The entries of a command that compiles a query, with the severity that the configuration of
the query gives to the one for the pipeline. -/
def announce : Option Query → List Log.Entry → List Log.Entry
  | some query, entries => entries.map (.announced query.config)
  | none, entries => entries

namespace Session

variable (env : Environment τ) (session : Session τ)

/-- A session in which no configuration announces pipelines. -/
def muted (session : Session τ) : Session τ :=
  { session with queries := session.queries.map Query.muted }

/-- The query that a command compiles in a session. -/
def compiled (session : Session τ) (command : Command τ) : Option Query :=
  command.compiles.bind fun id => session.queries[id]?

/-- The queries that commands compile, one for each that compiles one. -/
def compiledIn (session : Session τ) : List (Command τ) → List (Option Query)
  | [] => []
  | command :: rest =>
    session.compiled command :: (session.step env command).session.compiledIn rest

/-- A command gives the same in a muted session. -/
structure Mutes (query : Option Query) (reply muted : Reply τ) : Prop where
  session : muted.session = reply.session.muted
  answer : muted.answer = reply.answer
  entries : reply.entries = announce query muted.entries

theorem muted_setState (id : Nat) (state : QueryState) :
    (session.setState id state).muted = session.muted.setState id state := by
  have queries : (session.queries.modify id ({ · with state })).map Query.muted =
      (session.queries.map Query.muted).modify id ({ · with state }) := by
    refine map_modify ?_ id session.queries
    exact fun _ => rfl
  simp only [muted, setState, queries]

theorem stateOf_muted (id : Nat) : session.muted.stateOf id = session.stateOf id := by
  simp only [stateOf, muted, List.getElem?_map]
  cases session.queries[id]? <;> rfl

theorem start_muted (query : Query) :
    let started := session.start env query
    let other := session.muted.start env query.muted
    other.session = started.session.muted ∧ other.start = started.start ∧
      started.entries = other.entries.map (.announced query.config) := by
  have executed : ∀ compiled : CompiledQuery,
      (Log.Entry.ofExecution env.type.name compiled).announced query.config =
        .ofExecution env.type.name compiled := fun compiled =>
    if_neg (show Log.Event.queryExecuted.name ≠ Log.Event.pipelineCompiled.name by decide)
  intro started other
  simp only [started, other, start, env.build_muted, env.buildEntry_muted query]
  cases env.build query with
  | error failure => exact ⟨rfl, rfl, rfl⟩
  | ok compiled =>
    refine ⟨rfl, rfl, ?_⟩
    simp only [List.map_cons, List.map_nil, executed]

theorem entries_start_muted (query : Query) :
    let started := session.start env query
    let other := session.muted.start env query.muted
    started.entries ++ startEntries started.start =
      (other.entries ++ startEntries other.start).map (.announced query.config) := by
  intro started other
  obtain ⟨-, starts, entries⟩ := session.start_muted env query
  rw [List.map_append, Log.Entry.map_announced_of_closes _ fun _ => closes_startEntries _, starts,
    entries]

theorem startIteration_muted (id : Nat) (query : Query) :
    let started := session.startIteration env id query
    let other := session.muted.startIteration env id query.muted
    other.1 = started.1.muted ∧ other.2.1 = started.2.1 ∧
      started.2.2 = other.2.2.map (.announced query.config) := by
  obtain ⟨sessions, starts, -⟩ := session.start_muted env query
  refine ⟨?_, congrArg Iteration.ofStart starts, session.entries_start_muted env query⟩
  simp only [startIteration, sessions, starts, muted_setState]

theorem startStream_muted (id : Nat) (query : Query) :
    let started := session.startStream env id query
    let other := session.muted.startStream env id query.muted
    other.1 = started.1.muted ∧ other.2.1 = started.2.1 ∧
      started.2.2 = other.2.2.map (.announced query.config) := by
  obtain ⟨sessions, starts, entries⟩ := session.start_muted env query
  refine ⟨?_, congrArg Stream.ofStart starts, entries⟩
  simp only [startStream, sessions, muted_setState]

theorem mutes_withQuery {id : Nat} {compiled : Option Query} {act other : Query → Reply τ}
    (known : ∀ query, session.queries[id]? = some query →
      Mutes compiled (act query) (other query.muted)) :
    Mutes compiled (session.withQuery id act) (session.muted.withQuery id other) := by
  have found : session.muted.queries[id]? = session.queries[id]?.map Query.muted :=
    List.getElem?_map
  rw [withQuery, withQuery, found]
  cases same : session.queries[id]? with
  | some query => exact known query same
  | none => exact ⟨rfl, rfl, by cases compiled <;> rfl⟩

theorem mutes_compiling {id : Nat} {act other : Query → Reply τ}
    (known : ∀ query, Mutes (some query) (act query) (other query.muted)) :
    Mutes session.queries[id]? (session.withQuery id act) (session.muted.withQuery id other) :=
  session.mutes_withQuery fun query found => found ▸ known query

theorem mutes_addQuery (query : Query) :
    Mutes none (session.addQuery query) (session.muted.addQuery query.muted) where
  session := by simp [addQuery, muted]
  answer := by simp [addQuery, muted]
  entries := rfl

theorem mutes_addRoot (mapping : FieldMapping) (config : Config) :
    Mutes none (session.addRoot mapping config) (session.muted.addRoot mapping config.muted) :=
  mutes_addQuery { session with chains := session.chains ++ [.empty] } _

theorem mutes_execute (id : Nat) (query : Query) :
    Mutes (some query) (session.execute env id query)
      (session.muted.execute env id query.muted) := by
  obtain ⟨sessions, starts, -⟩ := session.start_muted env query
  have entries := session.entries_start_muted env query
  simp only [starts] at entries
  rw [execute, execute]
  simp only [sessions, starts, entries]
  cases Cursor.ofStart (session.start env query).start <;> exact ⟨rfl, rfl, rfl⟩

theorem mutes_addPull {other : Session τ} (sessions : other = session.muted) {id : Nat}
    {query : Query} {enumeration twin : Enumeration τ} (same : twin = enumeration)
    {entries others : List Log.Entry} (logged : entries = others.map (.announced query.config)) :
    Mutes (some query)
      { session := session.addPull id enumeration
        answer := .pull session.pulls.length
        entries }
      { session := other.addPull id twin
        answer := .pull other.pulls.length
        entries := others } := by
  subst sessions same logged
  exact ⟨rfl, rfl, rfl⟩

theorem mutes_drain {other : Session τ} (sessions : other = session.muted) {id : Nat}
    {query : Query} {stop : ItemResult τ → Bool} {enumeration twin : Enumeration τ}
    (same : twin = enumeration) {entries others : List Log.Entry}
    (logged : entries = others.map (.announced query.config))
    {answer : List (ItemResult τ) → Answer τ} :
    Mutes (some query) (session.drain id stop enumeration entries answer)
      (other.drain id stop twin others answer) := by
  subst sessions same logged
  refine ⟨?_, ?_, ?_⟩
  · simp only [drain, stateOf_muted, ← muted_setState]
    rfl
  · simp only [drain, stateOf_muted]
  · simp only [drain, stateOf_muted, announce, List.map_append]
    exact congrArg (_ ++ ·) (Log.Entry.map_announced_of_closes query.config fun _ =>
      Enumeration.closes_pullAll stop).symm

theorem mutes_collect {β : Type} (id : Nat) (query : Query)
    (read : ItemResult τ → Except QueryError β) (answer : List β → Answer τ) :
    Mutes (some query) (session.collect env id query read answer)
      (session.muted.collect env id query.muted read answer) := by
  obtain ⟨sessions, iterations, entries⟩ := session.startIteration_muted env id query
  unfold collect
  exact mutes_drain _ sessions (congrArg Enumeration.iteration iterations) entries

theorem mutes_register (query : Query) (processor : Processor τ) :
    Mutes none (session.register query processor)
      (session.muted.register query.muted processor) := by
  have same : session.muted.chainOf query.muted = session.chainOf query := rfl
  rw [register, register, same]
  cases (session.chainOf query).add processor <;> exact ⟨rfl, rfl, rfl⟩

/-- A command gives the same in a muted session, and logs the same but for the severity of the
entry for the pipeline that it compiles. -/
theorem mutes_step (command : Command τ) :
    Mutes (session.compiled command) (session.step env command)
      (session.muted.step env command.muted) := by
  cases command with
  | root mapping config => exact session.mutes_addRoot mapping config
  | append id operation | duplicate id | configure id config =>
    exact session.mutes_withQuery fun query _ => session.mutes_addQuery _
  | compile id =>
    refine session.mutes_compiling fun query => ?_
    rw [env.build_muted, env.buildEntry_muted query]
    exact ⟨rfl, rfl, rfl⟩
  | execute id => exact session.mutes_compiling fun query => session.mutes_execute env id query
  | iterate id =>
    refine session.mutes_compiling fun query => ?_
    obtain ⟨sessions, iterations, entries⟩ := session.startIteration_muted env id query
    exact mutes_addPull _ sessions (congrArg Enumeration.iteration iterations) entries
  | stream id =>
    refine session.mutes_compiling fun query => ?_
    obtain ⟨sessions, streams, entries⟩ := session.startStream_muted env id query
    exact mutes_addPull _ sessions (congrArg Enumeration.stream streams) entries
  | toList id | toEntities id | toProjections id =>
    exact session.mutes_compiling fun query => session.mutes_collect env id query _ _
  | iterateAll id =>
    refine session.mutes_compiling fun query => ?_
    obtain ⟨sessions, iterations, entries⟩ := session.startIteration_muted env id query
    exact mutes_drain _ sessions (congrArg Enumeration.iteration iterations) entries
  | streamAll id =>
    refine session.mutes_compiling fun query => ?_
    obtain ⟨sessions, streams, entries⟩ := session.startStream_muted env id query
    exact mutes_drain _ sessions (congrArg Enumeration.stream streams) entries
  | next id =>
    change Mutes none (session.step env (.next id)) (session.muted.step env (.next id))
    rw [step, step, show session.muted.pulls = session.pulls from rfl]
    cases session.pulls[id]? with
    | none => exact ⟨rfl, rfl, rfl⟩
    | some pull =>
      refine ⟨?_, rfl, rfl⟩
      simp only [pullNext, stateOf_muted, ← muted_setState]
      rfl
  | register id processor =>
    exact session.mutes_withQuery fun query _ => session.mutes_register query processor
  | track _ | clearTracker | insert _ | setFailure _ | aggregate _ | aggregateStream _ =>
    exact ⟨rfl, rfl, rfl⟩

theorem compiled_muted (command : Command τ) :
    session.muted.compiled command.muted = (session.compiled command).map Query.muted := by
  have same : command.muted.compiles = command.compiles := by cases command <;> rfl
  rw [compiled, compiled, same]
  cases command.compiles with
  | none => rfl
  | some id => exact List.getElem?_map

/-- What one configuration announces, another announces as it says. -/
theorem announce_announce {first second : Option Query}
    (same : second.map Query.muted = first.map Query.muted) (entries : List Log.Entry) :
    announce second (announce first entries) = announce second entries := by
  match first, second with
  | none, none => rfl
  | some query, some other =>
    simp only [announce, List.map_map]
    exact List.map_congr_left fun entry _ => Log.Entry.announced_announced _ _ entry

section

variable {session} {twin : Session τ} (alike : twin.muted = session.muted)

include alike

/-- A command gives the same in sessions that differ only in what their configurations
announce. -/
theorem step_alike {command other : Command τ} (same : other.muted = command.muted) :
    let reply := session.step env command
    let twinned := twin.step env other
    twinned.session.muted = reply.session.muted ∧ twinned.answer = reply.answer ∧
      twinned.entries = announce (twin.compiled other) reply.entries := by
  intro reply twinned
  have first := session.mutes_step env command
  have second := twin.mutes_step env other
  have compiles := twin.compiled_muted other
  rw [alike, same] at second compiles
  refine ⟨second.session.symm.trans first.session, second.answer.symm.trans first.answer, ?_⟩
  rw [second.entries, first.entries,
    announce_announce (compiles.symm.trans (session.compiled_muted command))]

/-- So does a run. -/
theorem run_alike {commands others : List (Command τ)}
    (same : others.map Command.muted = commands.map Command.muted) :
    let run := session.run env commands
    let twinned := twin.run env others
    twinned.1.muted = run.1.muted ∧ twinned.2.map Prod.fst = run.2.map Prod.fst ∧
      twinned.2.map Prod.snd =
        List.zipWith announce (twin.compiledIn env others) (run.2.map Prod.snd) := by
  induction commands generalizing session twin others with
  | nil =>
    cases List.map_eq_nil_iff.mp same
    exact ⟨alike, rfl, rfl⟩
  | cons command commands ih =>
    cases others with
    | nil => cases same
    | cons other others =>
      obtain ⟨here, later⟩ := List.cons.inj same
      obtain ⟨sessions, answer, entries⟩ := step_alike env alike here
      obtain ⟨last, answers, logged⟩ := ih sessions later
      refine ⟨last, ?_, ?_⟩
      · simp only [run, List.map_cons, answer, answers]
      · simp only [run, compiledIn, List.map_cons, List.zipWith_cons_cons, entries, logged]

end

/-- The session, the answers and the entries of a run are decided without a logger. Under every
threshold the programs that log while they run give this session and these answers, and write
those of the entries that reach the threshold. Sessions and commands that differ only in what
their configurations announce give the same, and log the same but for the severity of the
entries for compiled pipelines, which is as each configuration says. -/
theorem logging_changes_nothing (env : Environment τ) (session : Session τ)
    (commands : List (Command τ)) :
    let run := session.run env commands
    let logged := fun logger => (session.runLogging env commands).run ⟨logger, []⟩
    (∀ logger, (logged logger).1 = (run.1, run.2.map Prod.fst)) ∧
    (logged ⟨.trace⟩).2.written = run.2.flatMap Prod.snd ∧
    (∀ logger : Log.Logger, (logged logger).2.written =
      (logged ⟨.trace⟩).2.written.filter fun entry => logger.enabled entry.severity) ∧
    ∀ (twin : Session τ) (others : List (Command τ)), twin.muted = session.muted →
      others.map Command.muted = commands.map Command.muted →
      let twinned := twin.run env others
      twinned.1.muted = run.1.muted ∧ twinned.2.map Prod.fst = run.2.map Prod.fst ∧
        twinned.2.map Prod.snd =
          List.zipWith announce (twin.compiledIn env others) (run.2.map Prod.snd) := by
  intro run logged
  have performs : ∀ logger, logged logger =
      ((run.1, run.2.map Prod.fst), ⟨logger, logger.written (run.2.flatMap Prod.snd)⟩) :=
    fun logger => session.performs_run env commands ⟨logger, []⟩
  have everything : (logged ⟨.trace⟩).2.written = run.2.flatMap Prod.snd := by
    rw [performs]
    exact Log.Logger.written_trace _
  refine ⟨fun logger => ?_, everything, fun logger => ?_, fun twin others alike same => ?_⟩
  · rw [performs]
  · rw [everything, performs]
    rfl
  · exact run_alike env alike same

/-- One query announces its pipeline, the query that was configured from it does not. -/
def announcing : List (Command Json) :=
  [.configure 0 ⟨.flatten, false⟩, .iterateAll 0, .compile 1]

theorem logging_changes_nothing_announcing :
    let quiet : Session Json := .ofStore brokenStore unmapped {}
    let loud : Session Json := .ofStore brokenStore unmapped ⟨.flatten, true⟩
    let run := quiet.run plainDocuments announcing
    let announced := loud.run plainDocuments announcing
    loud.muted = quiet.muted ∧ announcing.map Command.muted = announcing.map Command.muted ∧
      announced.2.map Prod.fst = run.2.map Prod.fst ∧
      (run.2.map Prod.snd).map (List.map Log.Entry.severity) =
        [[], [.trace, .trace, .warn], [.trace]] ∧
      (announced.2.map Prod.snd).map (List.map Log.Entry.severity) =
        [[], [.info, .trace, .warn], [.trace]] := by
  intro quiet loud run announced
  have alike : loud.muted = quiet.muted := rfl
  obtain ⟨-, -, -, twins⟩ := logging_changes_nothing plainDocuments quiet announcing
  obtain ⟨-, answers, entries⟩ := twins loud announcing alike rfl
  refine ⟨alike, rfl, answers, rfl, ?_⟩
  rw [show announced.2.map Prod.snd = _ from entries]
  rfl

end Session
end DocQuery
