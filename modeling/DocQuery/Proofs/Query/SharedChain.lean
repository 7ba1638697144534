import DocQuery.Proofs.Query.Lineage
import DocQuery.Query.DocumentProcessor

/-!
# Shared chains of processors

The queries that were built from one root refer to one chain of processors. It is open until one
of them is enumerated and sealed from then on, so that no enumeration of any of them ever runs
another list of processors than any other (`chain_of_run`).
-/
namespace DocQuery

variable {τ : Type}

theorem Command.eq_register {command : Command τ} {id : Nat} {processor : Processor τ}
    (registers : command.registers = some (id, processor)) :
    command = .register id processor := by
  cases command <;> cases registers
  rfl

namespace Session

/-- The processor that a command adds to the chain of a query: it is registered through a query
of that chain, and the answer says that it is there. -/
def registered (session : Session τ) (query : Query) (command : Command τ) :
    Answer τ → List (Processor τ)
  | .done => match command.registers with
    | some (id, processor) =>
      if session.queries[id]?.any (·.processors == query.processors) then [processor] else []
    | none => []
  | _ => []

/-- The processors that commands add to the chain of a query. -/
def registeredIn (env : Environment τ) (query : Query) (session : Session τ) :
    List (Command τ) → List (Processor τ)
  | [] => []
  | command :: rest =>
    session.registered query command (session.step env command).answer ++
      registeredIn env query (session.step env command).session rest

variable (env : Environment τ) {session : Session τ} {query : Query} {origins : List Origin}

theorem registered_of_registers_none {command : Command τ} (none : command.registers = none)
    (answer : Answer τ) : session.registered query command answer = [] := by
  cases answer <;> first | rfl | rw [registered, none]

theorem registered_done {id : Nat} {other : Query} (found : session.queries[id]? = some other)
    (processor : Processor τ) :
    session.registered query (.register id processor) .done =
      if other.processors = query.processors then [processor] else [] := by
  simp only [registered, Command.registers, found, Option.any_some, beq_iff_eq]

/-! ## Chains by the queries that refer to them -/

theorem chainOf_congr {first second : Query} (same : first.processors = second.processors) :
    session.chainOf first = session.chainOf second := by
  rw [chainOf, same, ← chainOf]

/-- A chain that is put in place of another is seen from all queries that refer to it, and from
no others. -/
theorem chainOf_setChain {other : Query} (known : other.processors < session.chains.length)
    (chain : ProcessorChain τ) :
    (session.setChain other chain).chainOf query =
      if query.processors = other.processors then chain else session.chainOf query := by
  rw [setChain, chainOf, List.getD_eq_getElem?_getD, List.getElem?_set]
  by_cases same : other.processors = query.processors
  · rw [if_pos same, if_pos same.symm, if_pos known, Option.getD_some]
  · rw [if_neg same, if_neg (Ne.symm same), ← List.getD_eq_getElem?_getD, ← chainOf]

/-- A query is started behind its sealed chain. -/
theorem start_close (known : query.processors < session.chains.length) :
    (session.setChain query (session.chainOf query).close).start env query =
      session.start env query := by
  have closed : (session.setChain query (session.chainOf query).close).chainOf query =
      (session.chainOf query).close := by
    rw [chainOf_setChain known, if_pos rfl]
  have again : (session.setChain query (session.chainOf query).close).setChain query
      (session.chainOf query).close = session.setChain query (session.chainOf query).close := by
    rw [setChain, setChain, List.set_set]
  rw [start, closed, ProcessorChain.close_close, again]
  rfl

theorem known_of_enumerated (derives : Derives session.chains.length session.plans origins)
    {command : Command τ} (enumerated : session.enumerated command = some query) :
    query.processors < session.chains.length := by
  obtain ⟨id, -, found⟩ := Option.bind_eq_some_iff.mp enumerated
  exact known_of_derives derives found

/-! ## One command -/

/-- A processor is added at the end of an open chain; a sealed one refuses it. -/
theorem step_register {id : Nat} (found : session.queries[id]? = some query)
    (processor : Processor τ) :
    session.step env (.register id processor) =
      if (session.chainOf query).isSealed then { session, answer := .failed .chainSealed }
      else
        { session := session.setChain query
            ⟨(session.chainOf query).processors ++ [processor], false⟩
          answer := .done
          entries := [ProcessorChain.registered processor] } := by
  rw [step, withQuery, found]
  simp only [register, ProcessorChain.add]
  cases sealed : (session.chainOf query).isSealed <;> rfl

/-- A sealed chain refuses a processor and an open one takes it at its end, which all queries that
refer to the chain see, and no others. -/
theorem chainOf_register (derives : Derives session.chains.length session.plans origins) {id : Nat}
    (found : session.queries[id]? = some query) (processor : Processor τ) :
    let chain := session.chainOf query
    let reply := session.step env (.register id processor)
    if chain.isSealed then reply.answer = .failed .chainSealed ∧ reply.session = session
    else
      let longer : ProcessorChain τ := ⟨chain.processors ++ [processor], false⟩
      reply.answer = .done ∧ reply.session = session.setChain query longer ∧
      ∀ (other : Nat) (twin : Query), session.queries[other]? = some twin →
        reply.session.chainOf twin =
          if twin.processors = query.processors then longer else session.chainOf twin := by
  intro chain reply
  have stepped : reply = _ := step_register env found processor
  split
  next isSealed =>
    rw [stepped, if_pos isSealed]
    exact ⟨rfl, rfl⟩
  next isOpen =>
    rw [stepped, if_neg isOpen]
    exact ⟨rfl, rfl, fun other twin _ => chainOf_setChain (known_of_derives derives found) _⟩

/-- A chain that was just added is empty, as is one that is not there. -/
theorem chainOf_append_opens {after : Session τ} {command : Command τ}
    (chains : after.chains = session.chains ++ command.opens) :
    after.chainOf query = session.chainOf query := by
  rw [chainOf, chainOf, chains, List.getD_eq_getElem?_getD, List.getD_eq_getElem?_getD]
  rcases Nat.lt_or_ge query.processors session.chains.length with known | new
  · rw [List.getElem?_append_left known]
  · rw [List.getElem?_append_right new, List.getElem?_eq_none new]
    cases command with
    | root mapping config => cases query.processors - session.chains.length <;> rfl
    | _ => rfl

/-- An enumeration seals the chain of the query that is enumerated. -/
theorem chainOf_step_of_enumerated
    (derives : Derives session.chains.length session.plans origins) {command : Command τ}
    {other : Query} (enumerated : session.enumerated command = some other) :
    (session.step env command).session.chainOf query =
      if query.processors = other.processors then (session.chainOf query).close
      else session.chainOf query := by
  obtain ⟨queries, pulls, journal, stepped⟩ := step_enumerating env enumerated
  have chains : (session.step env command).session.chains =
      (session.setChain other (session.chainOf other).close).chains := by
    rw [stepped]
    exact session.chains_start env other
  rw [chainOf, chains, ← chainOf, chainOf_setChain (known_of_enumerated derives enumerated)]
  by_cases same : query.processors = other.processors
  · rw [if_pos same, if_pos same, chainOf_congr same]
  · rw [if_neg same, if_neg same]

/-- A registration adds its processor to the chain of the query it is made through. -/
theorem chainOf_step_register
    (derives : Derives session.chains.length session.plans origins) (id : Nat)
    (processor : Processor τ) :
    let reply := session.step env (.register id processor)
    reply.session.chainOf query =
      ⟨(session.chainOf query).processors ++
        session.registered query (.register id processor) reply.answer,
        (session.chainOf query).isSealed⟩ := by
  intro reply
  have kept : session.chainOf query =
      ⟨(session.chainOf query).processors ++ [], (session.chainOf query).isSealed⟩ := by
    rw [List.append_nil]
  cases found : session.queries[id]? with
  | none =>
    rw [show reply = { session, answer := .unknown } by simp only [reply, step, withQuery, found]]
    exact kept
  | some other =>
    rw [show reply = _ from step_register env found processor]
    cases isSealed : (session.chainOf other).isSealed with
    | true => exact kept
    | false =>
      rw [if_neg Bool.false_ne_true, registered_done found,
        chainOf_setChain (known_of_derives derives found)]
      by_cases same : query.processors = other.processors
      · rw [if_pos same, if_pos same.symm, chainOf_congr same, isSealed]
      · rw [if_neg same, if_neg (Ne.symm same)]
        exact kept

/-- A command adds the processor that it registers through a query of a chain, and seals the
chain if it enumerates one. -/
theorem chainOf_step (derives : Derives session.chains.length session.plans origins)
    (command : Command τ) :
    (session.step env command).session.chainOf query =
      ⟨(session.chainOf query).processors ++
        session.registered query command (session.step env command).answer,
        (session.chainOf query).isSealed ||
          (session.enumerated command).any (·.processors == query.processors)⟩ := by
  cases enumerated : session.enumerated command with
  | some other =>
    have unregistered : command.registers = none := by
      cases command <;> first | rfl | cases enumerated
    rw [registered_of_registers_none unregistered, List.append_nil, Option.any_some,
      chainOf_step_of_enumerated env derives enumerated]
    by_cases same : query.processors = other.processors
    · rw [if_pos same, beq_iff_eq.mpr same.symm, Bool.or_true]
      rfl
    · rw [if_neg same, beq_eq_false_iff_ne.mpr (Ne.symm same), Bool.or_false]
  | none =>
    rw [Option.any_none, Bool.or_false]
    cases registers : command.registers with
    | some registration =>
      cases Command.eq_register registers
      exact chainOf_step_register env derives registration.1 registration.2
    | none =>
      have chains := (step_unenumerating env enumerated).1 registers
      rw [registered_of_registers_none registers, List.append_nil]
      exact chainOf_append_opens chains

theorem registered_of_sealed (isSealed : (session.chainOf query).isSealed = true)
    (command : Command τ) :
    session.registered query command (session.step env command).answer = [] := by
  cases registers : command.registers with
  | none => exact registered_of_registers_none registers _
  | some registration =>
    cases Command.eq_register registers
    cases found : session.queries[registration.1]? with
    | none =>
      rw [step, withQuery, found]
      rfl
    | some other =>
      rw [step_register env found]
      cases refuses : (session.chainOf other).isSealed with
      | true => rfl
      | false =>
        have apart : other.processors ≠ query.processors := fun same => by
          rw [chainOf_congr same, isSealed] at refuses
          cases refuses
        exact (registered_done found registration.2).trans (if_neg apart)

theorem chainOf_step_of_sealed (derives : Derives session.chains.length session.plans origins)
    (isSealed : (session.chainOf query).isSealed = true) (command : Command τ) :
    (session.step env command).session.chainOf query = session.chainOf query := by
  rw [chainOf_step env derives, registered_of_sealed env isSealed, List.append_nil, isSealed,
    Bool.true_or, ← isSealed]

/-- What a command enumerates is enumerated behind the sealed chain. -/
theorem step_close {command : Command τ} (enumerated : session.enumerated command = some query)
    (known : query.processors < session.chains.length) :
    (session.setChain query (session.chainOf query).close).step env command =
      session.step env command := by
  cases command with
  | execute id | iterate id | stream id | toList id | toEntities id | toProjections id
  | iterateAll id | streamAll id =>
    have found : session.queries[id]? = some query := enumerated
    have closed : (session.setChain query (session.chainOf query).close).queries[id]? =
        some query := found
    rw [step, step, withQuery, withQuery, found, closed]
    simp only [execute, startIteration, startStream, collect, iterateAll, streamAll,
      start_close env known]
  | _ => cases enumerated

/-! ## Runs -/

/-- Over a store all chains are empty at first, those that are yet to be added too. -/
theorem chainOf_ofStore (store : Store) (mapping : FieldMapping) (config : Config) :
    (ofStore store mapping config : Session τ).chainOf query = .empty := by
  rw [chainOf, ofStore]
  cases query.processors <;> rfl

/-- A run adds the processors that it registers through queries of a chain, in their order, and
seals the chain if it enumerates one of them. -/
theorem chainOf_run (derives : Derives session.chains.length session.plans origins)
    (commands : List (Command τ)) :
    (session.run env commands).1.chainOf query =
      ⟨(session.chainOf query).processors ++ registeredIn env query session commands,
        (session.chainOf query).isSealed ||
          (session.enumeratedIn env commands).any (·.processors == query.processors)⟩ := by
  induction commands generalizing session origins with
  | nil =>
    rw [registeredIn, enumeratedIn, List.append_nil, List.any_nil, Bool.or_false]
    rfl
  | cons command commands ih =>
    refine (ih (derives_step env derives command)).trans ?_
    rw [chainOf_step env derives, registeredIn, enumeratedIn, List.append_assoc, Bool.or_assoc,
      List.any_append]
    cases session.enumerated command <;> simp

/-- A sealed chain never changes. -/
theorem chainOf_run_of_sealed (derives : Derives session.chains.length session.plans origins)
    (isSealed : (session.chainOf query).isSealed = true) (commands : List (Command τ)) :
    (session.run env commands).1.chainOf query = session.chainOf query := by
  induction commands generalizing session origins with
  | nil => rfl
  | cons command commands ih =>
    have kept := chainOf_step_of_sealed env derives isSealed command
    rw [← kept]
    exact ih (derives_step env derives command) (kept ▸ isSealed)

/-- The chain behind a run is the one that any enumeration in it has sealed. -/
theorem chainOf_run_of_enumerated (derives : Derives session.chains.length session.plans origins)
    {before later : List (Command τ)} {command : Command τ} {other : Query}
    (enumerated : (session.run env before).1.enumerated command = some other)
    (same : other.processors = query.processors) :
    (session.run env (before ++ command :: later)).1.chainOf query =
      ((session.run env before).1.chainOf other).close := by
  have reached := derives_run env derives before
  have closed : (((session.run env before).1.step env command).session).chainOf query =
      ((session.run env before).1.chainOf query).close := by
    rw [chainOf_step_of_enumerated env reached enumerated, if_pos same.symm]
  rw [run_append, chainOf_congr same, ← closed]
  exact chainOf_run_of_sealed env (derives_step env reached command) (by rw [closed]; rfl) later

/-! ## What enumerations run -/

/-- What is enumerated in a run is enumerated as if its chain were then what it is at last. -/
theorem enumerates_run (derives : Derives session.chains.length session.plans origins)
    {before later : List (Command τ)} {command : Command τ} {other : Query}
    (enumerated : (session.run env before).1.enumerated command = some other)
    (same : other.processors = query.processors) :
    let reached := (session.run env before).1
    let chain := (session.run env (before ++ command :: later)).1.chainOf query
    Prepares ⟨env.type, !other.selects, chain.processors⟩ (reached.start env other).start
        (reached.resultsOf env other) ∧
      (reached.setChain other chain).step env command = reached.step env command := by
  intro reached chain
  have closed : chain = (reached.chainOf other).close :=
    chainOf_run_of_enumerated env derives enumerated same
  have known := known_of_enumerated (derives_run env derives before) enumerated
  rw [closed]
  exact ⟨reached.prepares_start env other, step_close env enumerated known⟩

/-- All enumerations of a session run the processors of the chain of the query that they were
started from, which they have sealed. -/
def SharesChain (session : Session τ) : Prop :=
  ∀ pull ∈ session.pulls, ∃ starter, session.queries[pull.query]? = some starter ∧
    ∀ m, pull.enumeration.materializer? = some m →
      (session.chainOf starter).isSealed = true ∧
        m.processors = (session.chainOf starter).processors

variable {env}

theorem SharesChain.step (shares : session.SharesChain)
    (derives : Derives session.chains.length session.plans origins) (command : Command τ) :
    (session.step env command).session.SharesChain := by
  have refers {id : Nat} {starter : Query} (found : session.queries[id]? = some starter) :
      ∃ after, (session.step env command).session.queries[id]? = some after ∧
        after.processors = starter.processors := by
    have kept := getElem?_plans_step env (getElem?_plans found) command
    rw [plans, List.getElem?_map, Option.map_eq_some_iff] at kept
    obtain ⟨after, stays, same⟩ := kept
    exact ⟨after, stays, (Query.mk.inj same).2.1⟩
  -- An enumeration that was there before has sealed the chain, which is kept from then on.
  have older : ∀ pull ∈ session.pulls,
      ∃ starter, (session.step env command).session.queries[pull.query]? = some starter ∧
        ∀ m, pull.enumeration.materializer? = some m →
          ((session.step env command).session.chainOf starter).isSealed = true ∧
            m.processors = ((session.step env command).session.chainOf starter).processors := by
    intro pull listed
    obtain ⟨starter, found, sealing⟩ := shares pull listed
    obtain ⟨after, stays, same⟩ := refers found
    refine ⟨after, stays, fun m makes => ?_⟩
    obtain ⟨isSealed, runs⟩ := sealing m makes
    rw [chainOf_congr same, chainOf_step_of_sealed env derives isSealed]
    exact ⟨isSealed, runs⟩
  intro pull listed
  have changed := session.pulls_step env command
  generalize (session.step env command).session.pulls = pulls at changed listed
  cases changed with
  | kept => exact older pull listed
  | added new starts query enumerated origin made =>
    rcases List.mem_append.mp listed with listed | listed
    · exact older pull listed
    · cases List.mem_singleton.mp listed
      obtain ⟨after, stays, same⟩ := refers origin
      refine ⟨after, stays, fun m makes => ?_⟩
      rw [chainOf_congr same, chainOf_step_of_enumerated env derives enumerated, if_pos rfl,
        made m makes]
      exact ⟨rfl, rfl⟩
  | pulled id other pulls found =>
    rcases List.mem_or_eq_of_mem_set listed with listed | rfl
    · exact older pull listed
    · obtain ⟨starter, stays, sealing⟩ := older other (List.mem_of_getElem? found)
      exact ⟨starter, stays, fun m makes => sealing m (Enumeration.materializer?_next makes)⟩

theorem SharesChain.run (shares : session.SharesChain)
    (derives : Derives session.chains.length session.plans origins)
    (commands : List (Command τ)) : (session.run env commands).1.SharesChain := by
  induction commands generalizing session origins with
  | nil => exact shares
  | cons command commands ih =>
    exact ih (shares.step derives command) (derives_step env derives command)

variable (env)

/-- In a session over a store, two queries refer to one chain of processors exactly if they come
from one root. The chain is sealed exactly if any of its queries has been enumerated, and holds
the processors that were registered through them, in their order. Each of them adds a processor
at its end if it is open, which all of them see, and no other query does, and refuses it
otherwise. Every enumeration of any of them, whenever it was started, runs the processors that
the chain holds at last. -/
theorem chain_of_run (env : Environment τ) (store : Store) (mapping : FieldMapping)
    (config : Config) (commands : List (Command τ)) :
    let fresh : Session τ := .ofStore store mapping config
    let run := fresh.run env commands
    let origins := deriveAll [{ root := 0, mapping, config }] commands run.2
    (∀ id query, run.1.queries[id]? = some query →
      let chain := run.1.chainOf query
      (∃ origin, origins[id]? = some origin ∧
        ∀ (other : Nat) (twin : Query) (relative : Origin),
          run.1.queries[other]? = some twin → origins[other]? = some relative →
          (twin.processors = query.processors ↔ relative.root = origin.root)) ∧
      (chain.isSealed = true ↔ ∃ enumerated ∈ fresh.enumeratedIn env commands,
        enumerated.processors = query.processors) ∧
      chain.processors = registeredIn env query fresh commands ∧
      (∀ processor,
        let reply := run.1.step env (.register id processor)
        if chain.isSealed then reply.answer = .failed .chainSealed ∧ reply.session = run.1
        else
          let longer : ProcessorChain τ := ⟨chain.processors ++ [processor], false⟩
          reply.answer = .done ∧ reply.session = run.1.setChain query longer ∧
          ∀ (other : Nat) (twin : Query), run.1.queries[other]? = some twin →
            reply.session.chainOf twin =
              if twin.processors = query.processors then longer else run.1.chainOf twin) ∧
      ∀ before command later other, commands = before ++ command :: later →
        let reached := (fresh.run env before).1
        reached.enumerated command = some other → other.processors = query.processors →
        Prepares ⟨env.type, !other.selects, chain.processors⟩ (reached.start env other).start
            (reached.resultsOf env other) ∧
          (reached.setChain other chain).step env command = reached.step env command) ∧
    ∀ pull ∈ run.1.pulls, ∃ starter, run.1.queries[pull.query]? = some starter ∧
      ∀ m, pull.enumeration.materializer? = some m →
        m.processors = (run.1.chainOf starter).processors := by
  intro fresh run origins
  have started : Derives fresh.chains.length fresh.plans [{ root := 0, mapping, config }] :=
    derives_ofStore store mapping config
  have derives : Derives run.1.chains.length run.1.plans origins :=
    derives_run env started commands
  refine ⟨?_, ?_⟩
  · intro id query found chain
    have holds : chain = ⟨registeredIn env query fresh commands,
        (fresh.enumeratedIn env commands).any (·.processors == query.processors)⟩ := by
      rw [show chain = _ from chainOf_run env started commands, chainOf_ofStore]
      rfl
    refine ⟨?_, ?_, ?_, ?_, ?_⟩
    · obtain ⟨origin, -, listed, -, -, -, shared⟩ := derives.origin (getElem?_plans found)
      exact ⟨origin, listed, fun other twin relative stays =>
        shared other twin.plan relative (getElem?_plans stays)⟩
    · rw [holds]
      simp only [List.any_eq_true, beq_iff_eq]
    · exact congrArg ProcessorChain.processors holds
    · exact chainOf_register env derives found
    · rintro before command later other rfl reached enumerated same
      exact enumerates_run env started enumerated same
  · intro pull listed
    have shares : fresh.SharesChain := fun _ listed => (List.not_mem_nil listed).elim
    obtain ⟨starter, stays, sealing⟩ := shares.run started commands pull listed
    exact ⟨starter, stays, fun m makes => (sealing m makes).2⟩

/-- A processor that tracks every document. -/
def tracking : Processor Json :=
  DocumentProcessor.toProcessor Catalog.doc .tracking

/-- A processor is registered through a query that does not compile, and again through the root of
that query when it was enumerated. Beside them another query is opened. -/
def registrations : List (Command Json) :=
  [.append 0 (.take (.constant .null)), .register 1 tracking, .root unmapped {}, .toList 1,
    .register 0 tracking]

theorem chain_of_run_late :
    let fresh : Session Json := .ofStore brokenStore unmapped {}
    let run := fresh.run plainDocuments (registrations ++ [.stream 0])
    let reached := (fresh.run plainDocuments registrations).1
    let query : Query :=
      { chain := .append .root (.take (.constant .null)), mapping := unmapped, state := .faulted }
    let other : Query := { processors := 1, mapping := unmapped }
    run.1.queries[1]? = some query ∧ run.1.queries[2]? = some other ∧
      (run.1.chainOf query).processors = [tracking] ∧ (run.1.chainOf query).isSealed = true ∧
      (run.1.chainOf other).processors = [] ∧ (run.1.chainOf other).isSealed = false ∧
      (run.1.step plainDocuments (.register 1 tracking)).answer = .failed .chainSealed ∧
      (run.1.step plainDocuments (.register 2 tracking)).answer = .done ∧
      reached.enumerated (.stream 0) = some everything ∧
      Prepares ⟨Catalog.doc, true, [tracking]⟩ (reached.start plainDocuments everything).start
        (reached.resultsOf plainDocuments everything) ∧
      ∃ pull m, pull ∈ run.1.pulls ∧ pull.enumeration.materializer? = some m ∧
        m.processors = [tracking] := by
  intro fresh run reached query other
  obtain ⟨queries, pulls⟩ :=
    chain_of_run plainDocuments brokenStore unmapped {} (registrations ++ [.stream 0])
  have found : run.1.queries[1]? = some query := rfl
  have beside : run.1.queries[2]? = some other := rfl
  obtain ⟨-, seals, registered, register, enumerations⟩ := queries 1 query found
  obtain ⟨-, opens, unregistered, add, -⟩ := queries 2 other beside
  have isSealed : (run.1.chainOf query).isSealed = true := seals.mpr ⟨_, List.mem_cons_self, rfl⟩
  have isOpen : ¬ (run.1.chainOf other).isSealed = true := by
    intro closed
    obtain ⟨enumerated, listed, same⟩ := opens.mp closed
    rcases List.mem_cons.mp listed with rfl | listed
    · cases same
    · cases List.mem_singleton.mp listed
      cases same
  have chain : (run.1.chainOf query).processors = [tracking] := registered
  have empty : (run.1.chainOf other).processors = [] := unregistered
  have refused := register tracking
  have added := add tracking
  rw [if_pos isSealed] at refused
  rw [if_neg isOpen] at added
  have enumerated : reached.enumerated (.stream 0) = some everything := rfl
  obtain ⟨prepares, -⟩ :=
    enumerations registrations (.stream 0) [] everything rfl enumerated rfl
  rw [chain] at prepares
  have started : ∃ pull ∈ run.1.pulls, pull.query = 0 ∧
      ∃ m, pull.enumeration.materializer? = some m := ⟨_, List.mem_cons_self, rfl, _, rfl⟩
  obtain ⟨pull, listed, owner, m, makes⟩ := started
  obtain ⟨starter, stays, runs⟩ := pulls pull listed
  rw [owner] at stays
  cases (show some _ = some starter from stays)
  exact ⟨found, beside, chain, isSealed, empty, Bool.eq_false_iff.mpr isOpen, refused.1, added.1,
    enumerated, prepares, pull, m, listed, makes, (runs m makes).trans chain⟩

end Session
end DocQuery
