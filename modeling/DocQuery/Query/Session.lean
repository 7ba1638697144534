import DocQuery.Compile.Build
import DocQuery.Query.Enumeration

/-!
# Sessions

A session is everything that shares one store: the store, the queries over it, the chains of
processors that their items pass, what processors recorded, and all enumerations that were
started. Queries, chains and enumerations are known by their numbers and are only ever added.

A query that is opened over the store gets a chain of its own. One that is built from another
query copies the number of its chain, so that both refer to the same one: a processor that is
registered through either is there for both, and an enumeration of either seals the chain.

`step` carries out one command. It gives the session after it, the answer, and the log entries;
nothing in a session depends on which of the entries are written.
-/
namespace DocQuery

/-- A query: its operations, what it is compiled under, the number of its chain of processors,
and the state of its latest enumeration. -/
structure Query where
  chain : Chain := .root
  processors : Nat := 0
  mapping : FieldMapping
  config : Config := {}
  state : QueryState := .unmaterialized

/-- A started enumeration and the query it was started from. -/
structure Pull (τ : Type) where
  query : Nat
  enumeration : Enumeration τ

/-- What never changes in a session: the type of the entities, and how the store sorts. -/
structure Environment (τ : Type) where
  type : EntityType τ
  sorter : Sorter Json

structure Session (τ : Type) where
  store : Store
  chains : List (ProcessorChain τ) := [.empty]
  journal : Journal := {}
  queries : List Query
  pulls : List (Pull τ) := []

inductive Command (τ : Type) where
  /-- opens a query for everything in the store -/
  | root (mapping : FieldMapping) (config : Config)
  | append (query : Nat) (operation : Operation)
  | duplicate (query : Nat)
  | configure (query : Nat) (config : Config)
  | compile (query : Nat)
  | execute (query : Nat)
  | iterate (query : Nat)
  | stream (query : Nat)
  | next (pull : Nat)
  | toList (query : Nat)
  | toEntities (query : Nat)
  | toProjections (query : Nat)
  | iterateAll (query : Nat)
  | streamAll (query : Nat)
  /-- registers a processor in the chain of a query -/
  | register (query : Nat) (processor : Processor τ)
  | track (entry : TrackedEntry)
  | clearTracker
  | insert (document : Json)
  | setFailure (failure : Option Failure)
  | aggregate (pipeline : Pipeline)
  | aggregateStream (pipeline : Pipeline)

inductive Answer (τ : Type) where
  | query (id : Nat)
  | pull (id : Nat)
  | compiled (query : CompiledQuery)
  | item (item : Option (ItemResult τ))
  | items (items : List (ItemResult τ))
  | list (items : List (Item τ))
  | entities (values : List τ)
  | projections (documents : List Json)
  | results (results : Except ExecutionError ResultStream)
  | failed (error : QueryError)
  | done
  /-- there is no such query or enumeration -/
  | unknown

structure Reply (τ : Type) where
  session : Session τ
  answer : Answer τ
  entries : List Log.Entry := []

namespace Log.Entry

/-- The entry for an attempt to compile a query. -/
def ofBuild (entityType : String) (config : Config) : Except BuildFailure CompiledQuery → Entry
  | .ok query =>
    { severity := if config.logPipelines then .info else .trace
      event := Event.pipelineCompiled.name
      fields := [("entity", entityType), ("query", Pipeline.queryText query.pipeline),
        ("stages", toString query.pipeline.length)] }
  | .error failure =>
    .ofEvent .compileFailed
      [("code", failure.error.code), ("entity", entityType), ("message", failure.error.message),
        ("operation", failure.operation.name), ("position", toString failure.position)]

/-- The entry for a pipeline that is handed to the store. -/
def ofExecution (entityType : String) (query : CompiledQuery) : Entry :=
  .ofEvent .queryExecuted
    [("entity", entityType), ("stages", toString query.pipeline.length)]

end Log.Entry

namespace Environment

variable {τ : Type}

def build (env : Environment τ) (query : Query) : Except BuildFailure CompiledQuery :=
  Compiler.compile ⟨.standard, query.mapping, query.config⟩ env.type.name query.chain.operations

def buildEntry (env : Environment τ) (query : Query) : Log.Entry :=
  .ofBuild env.type.name query.config (env.build query)

end Environment

/-- A session in which a query was started. -/
structure Started (τ : Type) where
  session : Session τ
  start : Start τ
  entries : List Log.Entry

namespace Session

variable {τ : Type}

/-- A session over a store, with one query for everything in it. -/
def ofStore (store : Store) (mapping : FieldMapping) (config : Config) : Session τ :=
  { store, queries := [{ mapping, config }] }

def addQuery (session : Session τ) (query : Query) : Reply τ :=
  { session := { session with queries := session.queries ++ [query] }
    answer := .query session.queries.length }

/-- Adds a query for everything in the store, and a chain of processors for it. -/
def addRoot (session : Session τ) (mapping : FieldMapping) (config : Config) : Reply τ :=
  let opened : Session τ := { session with chains := session.chains ++ [.empty] }
  opened.addQuery { processors := session.chains.length, mapping, config }

def setState (session : Session τ) (id : Nat) (state : QueryState) : Session τ :=
  { session with queries := session.queries.modify id ({ · with state }) }

/-- The chain of processors that a query refers to. -/
def chainOf (session : Session τ) (query : Query) : ProcessorChain τ :=
  session.chains.getD query.processors .empty

def setChain (session : Session τ) (query : Query) (chain : ProcessorChain τ) : Session τ :=
  { session with chains := session.chains.set query.processors chain }

/-- Starts a query: its chain of processors is sealed, the operations are compiled, and the
store is handed the pipeline. -/
def start (env : Environment τ) (session : Session τ) (query : Query) : Started τ :=
  let closed := (session.chainOf query).close
  let session := session.setChain query closed
  let entry := env.buildEntry query
  match env.build query with
  | .error failure => ⟨session, .error (.compile failure.error), [entry]⟩
  | .ok compiled =>
    let (results, store) := session.store.aggregate env.sorter compiled.pipeline
    let materializer : Materializer τ :=
      { type := env.type
        yieldsEntities := compiled.yieldsEntities
        processors := closed.processors }
    ⟨{ session with store }, .ok (materializer, results),
      [entry, .ofExecution env.type.name compiled]⟩

def addPull (session : Session τ) (query : Nat) (enumeration : Enumeration τ) : Session τ :=
  { session with pulls := session.pulls ++ [⟨query, enumeration⟩] }

/-- Starts a bare cursor, which leaves the state of the query alone. -/
def execute (env : Environment τ) (session : Session τ) (id : Nat) (query : Query) : Reply τ :=
  let started := session.start env query
  let entries := started.entries ++ startEntries started.start
  match Cursor.ofStart started.start with
  | .ok cursor =>
    { session := started.session.addPull id (.cursor cursor)
      answer := .pull started.session.pulls.length
      entries }
  | .error error => { session := started.session, answer := .failed error, entries }

/-- A started iteration of a query, not yet added to the session. -/
def startIteration (env : Environment τ) (session : Session τ) (id : Nat) (query : Query) :
    Session τ × Iteration τ × List Log.Entry :=
  let started := session.start env query
  (started.session.setState id (Iteration.startState started.start),
    Iteration.ofStart started.start, started.entries ++ startEntries started.start)

/-- A started stream of a query, not yet added to the session. -/
def startStream (env : Environment τ) (session : Session τ) (id : Nat) (query : Query) :
    Session τ × Stream τ × List Log.Entry :=
  let started := session.start env query
  (started.session.setState id .enumerating, Stream.ofStart started.start, started.entries)

/-- The state of a query; one that does not exist has none. -/
def stateOf (session : Session τ) (id : Nat) : QueryState :=
  (session.queries[id]?.map Query.state).getD .unmaterialized

def pullNext (session : Session τ) (id : Nat) (pull : Pull τ) : Reply τ :=
  let pulled := pull.enumeration.next
  let state := pulled.transition.apply (session.stateOf pull.query)
  { session :=
      { session.setState pull.query state with
        pulls := session.pulls.set id { pull with enumeration := pulled.rest }
        journal := session.journal.applyAll pulled.effects }
    answer := .item pulled.item
    entries := pulled.entries }

/-- Drains an enumeration that was just started from a query. -/
def drain (session : Session τ) (id : Nat) (stop : ItemResult τ → Bool)
    (enumeration : Enumeration τ) (entries : List Log.Entry)
    (answer : List (ItemResult τ) → Answer τ) : Reply τ :=
  let drained := enumeration.drain stop (session.stateOf id)
  { session :=
      { session.setState id drained.state with
        journal := session.journal.applyAll drained.effects }
    answer := answer drained.items
    entries := entries ++ drained.entries }

/-- Drains a new iteration up to the first item that does not fit. -/
def collect {β : Type} (env : Environment τ) (session : Session τ) (id : Nat) (query : Query)
    (read : ItemResult τ → Except QueryError β) (answer : List β → Answer τ) : Reply τ :=
  let (session, iteration, entries) := session.startIteration env id query
  session.drain id (fun item => (read item).toBool == false) (.iteration iteration) entries
    fun items =>
      match items.mapM read with
      | .ok values => answer values
      | .error error => .failed error

def iterateAll (env : Environment τ) (session : Session τ) (id : Nat) (query : Query) : Reply τ :=
  let (session, iteration, entries) := session.startIteration env id query
  session.drain id (fun _ => false) (.iteration iteration) entries .items

def streamAll (env : Environment τ) (session : Session τ) (id : Nat) (query : Query) : Reply τ :=
  let (session, stream, entries) := session.startStream env id query
  session.drain id (fun _ => false) (.stream stream) entries .items

/-- Adds a processor to the chain of a query, unless the chain is sealed. -/
def register (session : Session τ) (query : Query) (processor : Processor τ) : Reply τ :=
  match (session.chainOf query).add processor with
  | .ok chain =>
    { session := session.setChain query chain
      answer := .done
      entries := [ProcessorChain.registered processor] }
  | .error error => { session, answer := .failed error }

/-- Carries out a command about a query. -/
def withQuery (session : Session τ) (id : Nat) (act : Query → Reply τ) : Reply τ :=
  match session.queries[id]? with
  | some query => act query
  | none => { session, answer := .unknown }

def step (env : Environment τ) (session : Session τ) : Command τ → Reply τ
  | .root mapping config => session.addRoot mapping config
  -- What is built from a query has the query's chain of processors, and a state of its own.
  | .append id operation => session.withQuery id fun query =>
    session.addQuery
      { query with chain := query.chain.append operation, state := .unmaterialized }
  | .duplicate id => session.withQuery id fun query =>
    session.addQuery { query with state := .unmaterialized }
  | .configure id config => session.withQuery id fun query =>
    session.addQuery { query with config, state := .unmaterialized }
  | .compile id => session.withQuery id fun query =>
    { session
      answer := match env.build query with
        | .ok compiled => .compiled compiled
        | .error failure => .failed (.compile failure.error)
      entries := [env.buildEntry query] }
  | .execute id => session.withQuery id fun query => session.execute env id query
  | .iterate id => session.withQuery id fun query =>
    let (session, iteration, entries) := session.startIteration env id query
    { session := session.addPull id (.iteration iteration)
      answer := .pull session.pulls.length
      entries }
  | .stream id => session.withQuery id fun query =>
    let (session, stream, entries) := session.startStream env id query
    { session := session.addPull id (.stream stream)
      answer := .pull session.pulls.length
      entries }
  | .next id =>
    match session.pulls[id]? with
    | some pull => session.pullNext id pull
    | none => { session, answer := .unknown }
  | .toList id => session.withQuery id fun query => session.collect env id query (·) .list
  | .toEntities id => session.withQuery id fun query =>
    session.collect env id query (entityOf env.type) .entities
  | .toProjections id => session.withQuery id fun query =>
    session.collect env id query (projectionOf env.type) .projections
  | .iterateAll id => session.withQuery id fun query => session.iterateAll env id query
  | .streamAll id => session.withQuery id fun query => session.streamAll env id query
  | .register id processor => session.withQuery id fun query => session.register query processor
  | .track entry =>
    { session := { session with journal := session.journal.apply (.track entry) }
      answer := .done }
  | .clearTracker =>
    { session := { session with journal := { session.journal with tracker := {} } }
      answer := .done }
  | .insert document =>
    { session := { session with store := session.store.insert document }, answer := .done }
  | .setFailure failure =>
    { session := { session with store := { session.store with failure } }, answer := .done }
  | .aggregate pipeline =>
    let (results, store) := session.store.aggregate env.sorter pipeline
    { session := { session with store }, answer := .results results }
  | .aggregateStream pipeline =>
    let (results, store) := session.store.aggregate env.sorter pipeline
    { session := { session with store }, answer := .results (.ok (Store.streamOf results)) }

def run (env : Environment τ) (session : Session τ) : List (Command τ) →
    Session τ × List (Answer τ × List Log.Entry)
  | [] => (session, [])
  | command :: rest =>
    let reply := session.step env command
    let (last, answers) := run env reply.session rest
    (last, (reply.answer, reply.entries) :: answers)

end Session
end DocQuery
