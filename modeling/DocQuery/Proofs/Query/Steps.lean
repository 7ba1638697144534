import DocQuery.Proofs.Query.Following

/-!
# What commands change

Each command is read once. `queries_step` and `pulls_step` list everything that a command can do
to the queries and to the enumerations of a session, `step_enumerating` and
`step_unenumerating` what it can do to the store's count and to the chains of processors,
`journal_step` what it can do to the journal. What a query's state depends on and that
enumerations stay what they are follow from them. The other lemmas say what the commands that
start, pull or drain an enumeration give.
-/
namespace DocQuery

variable {τ : Type}

open Processor (Invocation)

namespace Command

/-- The query that a command starts an enumeration of. -/
def starts : Command τ → Option Nat
  | .iterate query | .stream query | .toList query | .toEntities query | .toProjections query
  | .iterateAll query | .streamAll query => some query
  | _ => none

/-- The query that a command enumerates; a bare cursor does not show in its state. -/
def enumerates : Command τ → Option Nat
  | .execute query => some query
  | command => command.starts

/-- The enumeration that a command pulls from. -/
def pulls : Command τ → Option Nat
  | .next pull => some pull
  | _ => none

/-- The query through which a command registers a processor, and the processor. -/
def registers : Command τ → Option (Nat × Processor τ)
  | .register query processor => some (query, processor)
  | _ => none

/-- A command adds a query. -/
def builds : Command τ → Bool
  | .root _ _ | .append _ _ | .duplicate _ | .configure _ _ => true
  | _ => false

/-- The chains of processors that a command adds. -/
def opens : Command τ → List (ProcessorChain τ)
  | .root _ _ => [.empty]
  | _ => []

/-- A command hands the store a pipeline itself. -/
def isDirect : Command τ → Bool
  | .aggregate _ | .aggregateStream _ => true
  | _ => false

end Command

/-- What is read off a list that was changed at one place. -/
theorem map_modify {α β : Type} {read : α → β} {change : α → α} {changed : β → β}
    (commutes : ∀ a, read (change a) = changed (read a)) (place : Nat) (list : List α) :
    (list.modify place change).map read = (list.map read).modify place changed := by
  refine List.ext_getElem? fun other => ?_
  simp only [List.getElem?_map, List.getElem?_modify]
  cases list[other]? with
  | none => rfl
  | some a => by_cases same : place = other <;> simp [same, commutes]

/-- The query that an enumeration reports to; a bare cursor reports to none. -/
def Pull.owner (pull : Pull τ) : Option Nat :=
  match pull.enumeration with
  | .cursor _ => none
  | _ => some pull.query

/-- An enumeration that was pulled from once. -/
def Pull.advance (pull : Pull τ) : Pull τ :=
  { pull with enumeration := pull.enumeration.next.rest }

/-- A bare cursor leaves the state of its query alone. -/
theorem Cursor.transition_next (cursor : Cursor τ) : cursor.next.transition = .keep := by
  unfold next
  split
  · rfl
  · split <;> rfl

theorem Pull.owner_advance (pull : Pull τ) : pull.advance.owner = pull.owner := by
  rcases pull with ⟨query, _ | _ | _⟩ <;> rfl

/-- How an enumeration makes its items, unless it has none to make. -/
def Enumeration.materializer? : Enumeration τ → Option (Materializer τ)
  | .cursor c => some c.materializer
  | .iteration i => i.cursor.map Cursor.materializer
  | .stream (.running m _) => some m
  | .stream (.faulted m _) => some m
  | .stream _ => none

theorem Cursor.materializer_next (cursor : Cursor τ) :
    cursor.next.rest.materializer = cursor.materializer := by
  unfold next
  split
  · rfl
  · split
    · rfl
    next result remaining _ =>
      simp only
      cases (cursor.materializer.make result).item <;> rfl

/-- Pulls never change how items are made. -/
theorem Enumeration.materializer?_next {enumeration : Enumeration τ} {m : Materializer τ}
    (makes : enumeration.next.rest.materializer? = some m) :
    enumeration.materializer? = some m := by
  match enumeration with
  | .cursor c =>
    rw [← makes]
    exact congrArg some c.materializer_next.symm
  | .iteration ⟨some _, _⟩ => exact makes
  | .iteration ⟨none, none⟩ => cases makes
  | .iteration ⟨none, some c⟩ =>
    simp only [next, Iteration.next] at makes
    split at makes
    · rw [← makes]
      exact congrArg some c.materializer_next.symm
    · cases makes
    · cases makes
  | .stream (.running _ []) | .stream (.faulted _ []) | .stream (.faulted _ (_ :: _))
  | .stream (.refused _) | .stream .ending | .stream .ended => cases makes
  | .stream (.running n (result :: rest)) =>
    simp only [next, Stream.next] at makes
    split at makes <;> exact makes

/-- Whatever enumerates a start makes its items as the start was prepared. -/
theorem Prepares.materializer?_eq {m made : Materializer τ} {start : Start τ}
    {results : Except QueryError ResultStream} (prepares : Prepares m start results)
    {enumeration : Enumeration τ}
    (begins : (∃ cursor, Cursor.ofStart start = .ok cursor ∧ enumeration = .cursor cursor) ∨
      enumeration = .iteration (Iteration.ofStart start) ∨
      enumeration = .stream (Stream.ofStart start))
    (makes : enumeration.materializer? = some made) : made = m := by
  rcases begins with ⟨cursor, begun, rfl⟩ | rfl | rfl
  · cases prepares with
    | refused | unanswered => cases begun
    | answered results =>
      cases begun
      exact (Option.some.inj makes).symm
  · cases prepares with
    | refused | unanswered => cases makes
    | answered results => exact (Option.some.inj makes).symm
  · cases prepares with
    | refused => cases makes
    | unanswered | answered => exact (Option.some.inj makes).symm

namespace Session

variable (env : Environment τ) (session : Session τ)

/-- The query that an enumeration of a session reports to. -/
def ownerOf (pull : Nat) : Option Nat :=
  session.pulls[pull]?.bind Pull.owner

/-- The query that a command enumerates in a session. -/
def enumerated (command : Command τ) : Option Query :=
  command.enumerates.bind fun id => session.queries[id]?

/-! ## Starting a query -/

@[simp] theorem queries_start (query : Query) :
    (session.start env query).session.queries = session.queries := by
  unfold start
  cases env.build query <;> rfl

@[simp] theorem pulls_start (query : Query) :
    (session.start env query).session.pulls = session.pulls := by
  unfold start
  cases env.build query <;> rfl

@[simp] theorem chains_start (query : Query) :
    (session.start env query).session.chains =
      session.chains.set query.processors (session.chainOf query).close := by
  unfold start
  cases env.build query <;> rfl

@[simp] theorem journal_start (query : Query) :
    (session.start env query).session.journal = session.journal := by
  unfold start
  cases env.build query <;> rfl

/-- A store executes a query once if it compiles, and not at all otherwise. -/
theorem executions_start (query : Query) :
    (session.start env query).session.store.executions =
      session.store.executions + if (env.build query).toBool then 1 else 0 := by
  unfold start
  cases env.build query <;> rfl

/-- Registering a processor has to do only with the chains. -/
theorem session_register (query : Query) (processor : Processor τ) :
    ∃ chains, (session.register query processor).session = { session with chains } := by
  unfold register
  cases (session.chainOf query).add processor with
  | ok chain => exact ⟨_, rfl⟩
  | error error => exact ⟨session.chains, rfl⟩

/-! ## Everything that a command does -/

variable {session}

/-- A command about a query does something with the query, or there is none and nothing is
done. -/
@[elab_as_elim]
theorem withQuery_elim {motive : Reply τ → Prop} (id : Nat) (act : Query → Reply τ)
    (unknown : motive { session, answer := .unknown })
    (known : ∀ query, session.queries[id]? = some query → motive (act query)) :
    motive (session.withQuery id act) := by
  unfold withQuery
  split
  next query found => exact known query found
  next => exact unknown

/-- The queries that a command can leave behind. -/
inductive QueriesAfter (session : Session τ) (command : Command τ) : List Query → Prop
  | kept : QueriesAfter session command session.queries
  | added (query : Query) (fresh : query.state = .unmaterialized) (builds : command.builds = true) :
    QueriesAfter session command (session.queries ++ [query])
  | started (id : Nat) (state : QueryState) (starts : command.starts = some id) :
    QueriesAfter session command (session.setState id state).queries
  | pulled (id : Nat) (pull : Pull τ) (pulls : command.pulls = some id)
    (found : session.pulls[id]? = some pull) :
    QueriesAfter session command (session.setState pull.query
      (pull.enumeration.next.transition.apply (session.stateOf pull.query))).queries

theorem queries_step (command : Command τ) :
    QueriesAfter session command (session.step env command).session.queries := by
  cases command with
  | root _ _ => exact .added _ rfl rfl
  | append id _ | duplicate id | configure id _ =>
    rw [step]
    exact withQuery_elim id _ .kept fun query _ => .added _ rfl rfl
  | compile id =>
    rw [step]
    exact withQuery_elim id _ .kept fun query _ => .kept
  | execute id =>
    rw [step]
    refine withQuery_elim id _ .kept fun query _ => ?_
    have kept := session.queries_start env query
    rw [execute]
    split <;> exact kept ▸ .kept
  | iterate id | stream id =>
    rw [step]
    refine withQuery_elim id _ .kept fun query _ => ?_
    simp only [startIteration, startStream, addPull, setState, queries_start]
    exact .started id _ rfl
  | toList id | toEntities id | toProjections id | iterateAll id | streamAll id =>
    rw [step]
    refine withQuery_elim id _ .kept fun query _ => ?_
    -- The state is set when the enumeration is started, and again when it was drained.
    simp only [startIteration, startStream, collect, iterateAll, streamAll, drain, setState,
      queries_start, List.modify_modify_eq]
    exact .started id _ rfl
  | next id =>
    rw [step]
    cases found : session.pulls[id]? with
    | none => exact .kept
    | some pull => exact .pulled id pull rfl found
  | register id processor =>
    rw [step]
    refine withQuery_elim id _ .kept fun query _ => ?_
    obtain ⟨chains, same⟩ := session.session_register query processor
    rw [same]
    exact .kept
  | track _ | clearTracker | insert _ | setFailure _ | aggregate _ | aggregateStream _ =>
    exact .kept

/-- The enumerations that a command can leave behind. -/
inductive PullsAfter (session : Session τ) (command : Command τ) : List (Pull τ) → Prop
  | kept : PullsAfter session command session.pulls
  | added (pull : Pull τ) (starts : ∀ id, pull.owner = some id → command.starts = some id)
    (query : Query) (enumerated : session.enumerated command = some query)
    (origin : session.queries[pull.query]? = some query)
    (makes : ∀ m, pull.enumeration.materializer? = some m → m = session.materializer env query) :
    PullsAfter session command (session.pulls ++ [pull])
  | pulled (id : Nat) (pull : Pull τ) (pulls : command.pulls = some id)
    (found : session.pulls[id]? = some pull) :
    PullsAfter session command (session.pulls.set id pull.advance)

theorem pulls_step (command : Command τ) :
    PullsAfter env session command (session.step env command).session.pulls := by
  cases command with
  | root _ _ => exact .kept
  | append id _ | duplicate id | configure id _ | compile id =>
    rw [step]
    exact withQuery_elim id _ .kept fun query _ => .kept
  | execute id =>
    rw [step]
    refine withQuery_elim id _ .kept fun query found => ?_
    have kept := session.pulls_start env query
    have prepares := session.prepares_start env query
    rw [execute]
    split
    next cursor begun =>
      rw [addPull, kept]
      exact .added _ nofun query found found fun _ =>
        prepares.materializer?_eq (.inl ⟨cursor, begun, rfl⟩)
    next => exact kept ▸ .kept
  | iterate id =>
    rw [step]
    refine withQuery_elim id _ .kept fun query found => ?_
    have prepares := session.prepares_start env query
    simp only [startIteration, addPull, setState, pulls_start]
    exact .added _ (fun _ owner => owner) query found found fun _ =>
      prepares.materializer?_eq (.inr (.inl rfl))
  | stream id =>
    rw [step]
    refine withQuery_elim id _ .kept fun query found => ?_
    have prepares := session.prepares_start env query
    simp only [startStream, addPull, setState, pulls_start]
    exact .added _ (fun _ owner => owner) query found found fun _ =>
      prepares.materializer?_eq (.inr (.inr rfl))
  | toList id | toEntities id | toProjections id | iterateAll id | streamAll id =>
    rw [step]
    refine withQuery_elim id _ .kept fun query _ => ?_
    simp only [startIteration, startStream, collect, iterateAll, streamAll, drain, setState,
      pulls_start]
    exact .kept
  | next id =>
    rw [step]
    cases found : session.pulls[id]? with
    | none => exact .kept
    | some pull => exact .pulled id pull rfl found
  | register id processor =>
    rw [step]
    refine withQuery_elim id _ .kept fun query _ => ?_
    obtain ⟨chains, same⟩ := session.session_register query processor
    rw [same]
    exact .kept
  | track _ | clearTracker | insert _ | setFailure _ | aggregate _ | aggregateStream _ =>
    exact .kept

/-- Beyond starting it, a command that enumerates a query has to do only with the queries, the
enumerations and the journal. -/
theorem step_enumerating {command : Command τ} {query : Query}
    (enumerated : session.enumerated command = some query) :
    ∃ queries pulls journal, (session.step env command).session =
      { (session.start env query).session with queries, pulls, journal } := by
  cases command with
  | execute id =>
    rw [step, withQuery, show session.queries[id]? = some query from enumerated]
    simp only [execute]
    split <;> exact ⟨_, _, _, rfl⟩
  | iterate id | stream id | toList id | toEntities id | toProjections id | iterateAll id
  | streamAll id =>
    rw [step, withQuery, show session.queries[id]? = some query from enumerated]
    exact ⟨_, _, _, rfl⟩
  | _ => cases enumerated

/-- A command that enumerates nothing leaves the chains of processors alone that there are, unless
it registers a processor, and only direct ones make the store execute something. -/
theorem step_unenumerating {command : Command τ} (idle : session.enumerated command = none) :
    (command.registers = none →
      (session.step env command).session.chains = session.chains ++ command.opens) ∧
    (session.step env command).session.store.executions =
      session.store.executions + if command.isDirect then 1 else 0 := by
  have kept : session.chains = session.chains ++ [] := (List.append_nil _).symm
  cases command with
  | root _ _ => exact ⟨fun _ => rfl, rfl⟩
  | append id _ | duplicate id | configure id _ | compile id =>
    rw [step]
    exact withQuery_elim id _ ⟨fun _ => kept, rfl⟩ fun query _ => ⟨fun _ => kept, rfl⟩
  | execute id | iterate id | stream id | toList id | toEntities id | toProjections id
  | iterateAll id | streamAll id =>
    rw [step, withQuery, show session.queries[id]? = none from idle]
    exact ⟨fun _ => kept, rfl⟩
  | next id =>
    rw [step]
    cases session.pulls[id]? <;> exact ⟨fun _ => kept, rfl⟩
  | register id processor =>
    rw [step]
    refine withQuery_elim id _ ⟨nofun, rfl⟩ fun query _ => ⟨nofun, ?_⟩
    obtain ⟨chains, same⟩ := session.session_register query processor
    rw [same]
    rfl
  | track _ | clearTracker | insert _ | setFailure _ | aggregate _ | aggregateStream _ =>
    exact ⟨fun _ => kept, rfl⟩

/-- A command carries out effects, or forgets all snapshots. -/
theorem journal_step (command : Command τ) :
    (∃ effects, (session.step env command).session.journal = session.journal.applyAll effects) ∨
      (session.step env command).session.journal = { session.journal with tracker := {} } := by
  cases command with
  | root _ _ => exact .inl ⟨[], rfl⟩
  | append id _ | duplicate id | configure id _ | compile id =>
    rw [step]
    exact withQuery_elim id _ (.inl ⟨[], rfl⟩) fun query _ => .inl ⟨[], rfl⟩
  | execute id =>
    rw [step]
    refine withQuery_elim id _ (.inl ⟨[], rfl⟩) fun query _ => .inl ⟨[], ?_⟩
    have kept := session.journal_start env query
    rw [execute]
    split <;> exact kept
  | iterate id | stream id =>
    rw [step]
    exact withQuery_elim id _ (.inl ⟨[], rfl⟩) fun query _ =>
      .inl ⟨[], session.journal_start env query⟩
  | toList id | toEntities id | toProjections id | iterateAll id | streamAll id =>
    rw [step]
    refine withQuery_elim id _ (.inl ⟨[], rfl⟩) fun query _ => .inl ?_
    simp only [startIteration, startStream, collect, iterateAll, streamAll, drain, setState,
      journal_start]
    exact ⟨_, rfl⟩
  | next id =>
    rw [step]
    cases session.pulls[id]? with
    | none => exact .inl ⟨[], rfl⟩
    | some pull => exact .inl ⟨_, rfl⟩
  | register id processor =>
    rw [step]
    refine withQuery_elim id _ (.inl ⟨[], rfl⟩) fun query _ => .inl ⟨[], ?_⟩
    obtain ⟨chains, same⟩ := session.session_register query processor
    rw [same]
    rfl
  | track entry => exact .inl ⟨[.track entry], rfl⟩
  | clearTracker => exact .inr rfl
  | insert _ | setFailure _ | aggregate _ | aggregateStream _ => exact .inl ⟨[], rfl⟩

/-! ## What follows from it -/

theorem length_queries_step (command : Command τ) :
    session.queries.length ≤ (session.step env command).session.queries.length := by
  have after := session.queries_step env command
  generalize (session.step env command).session.queries = queries at after ⊢
  cases after with
  | kept => exact Nat.le_refl _
  | added query fresh =>
    rw [List.length_append]
    exact Nat.le_add_right _ _
  | started | pulled => exact Nat.le_of_eq (List.length_modify _ _ _).symm

theorem stateOf_setState {id : Nat} (known : id < session.queries.length) (state : QueryState) :
    (session.setState id state).stateOf id = state := by
  rw [stateOf, setState, List.getElem?_modify_eq, List.getElem?_eq_getElem known]
  rfl

theorem stateOf_setState_of_ne {id other : Nat} (different : id ≠ other) (state : QueryState) :
    (session.setState id state).stateOf other = session.stateOf other := by
  simp only [stateOf, setState, List.getElem?_modify_ne _ _ different]

theorem setState_setState (id : Nat) (first second : QueryState) :
    (session.setState id first).setState id second = session.setState id second := by
  simp [setState, List.modify_modify_eq, Function.comp_def]

/-- Setting a state to what it is changes no state. -/
theorem stateOf_setState_self (id other : Nat) :
    (session.setState id (session.stateOf id)).stateOf other = session.stateOf other := by
  by_cases different : id = other
  · subst different
    by_cases known : id < session.queries.length
    · exact stateOf_setState known _
    · rw [stateOf, setState, List.getElem?_modify_eq, stateOf,
        List.getElem?_eq_none (Nat.le_of_not_lt known)]
      rfl
  · exact stateOf_setState_of_ne different _

/-- A query's state is kept if no enumeration of it is started, and a pull from one of its
enumerations has no say in it. -/
theorem stateOf_step_of_quiet {command : Command τ} {id : Nat}
    (unstarted : command.starts ≠ some id)
    (quiet : ∀ pulled pull, command.pulls = some pulled → session.pulls[pulled]? = some pull →
      pull.owner = some id →
      pull.enumeration.next.transition.apply (session.stateOf id) = session.stateOf id) :
    (session.step env command).session.stateOf id = session.stateOf id := by
  have after := session.queries_step env command
  rw [stateOf]
  generalize (session.step env command).session.queries = queries at after ⊢
  cases after with
  | kept => rfl
  | added query fresh =>
    rw [stateOf, List.getElem?_append]
    split
    next => rfl
    next unknown =>
      rw [List.getElem?_eq_none (Nat.le_of_not_lt unknown)]
      cases id - session.queries.length with
      | zero => simp [fresh]
      | succ => rfl
  | started query state starts =>
    have different : query ≠ id := by
      rintro rfl
      exact unstarted starts
    exact stateOf_setState_of_ne different _
  | pulled pulled pull pulls found =>
    change (session.setState _ _).stateOf id = _
    by_cases own : pull.query = id
    · subst own
      have kept : pull.enumeration.next.transition.apply (session.stateOf pull.query) =
          session.stateOf pull.query := by
        cases kind : pull.enumeration with
        | cursor cursor => exact congrArg (Transition.apply · _) cursor.transition_next
        | iteration | stream =>
          exact kind ▸ quiet pulled pull pulls found (by rw [Pull.owner, kind])
      rw [kept]
      exact stateOf_setState_self _ _
    · exact stateOf_setState_of_ne own _

/-- An enumeration is left as it is by commands that do not pull from it. -/
theorem getElem?_pulls_step {command : Command τ} {id : Nat} {pull : Pull τ}
    (found : session.pulls[id]? = some pull) (unpulled : command.pulls ≠ some id) :
    (session.step env command).session.pulls[id]? = some pull := by
  have after := session.pulls_step env command
  generalize (session.step env command).session.pulls = pulls at after ⊢
  cases after with
  | kept => exact found
  | added new =>
    obtain ⟨inside, -⟩ := List.getElem?_eq_some_iff.mp found
    rw [List.getElem?_append_left inside, found]
  | pulled other new pulls _ =>
    have different : other ≠ id := by
      rintro rfl
      exact unpulled pulls
    rw [List.getElem?_set_ne different, found]

/-- Enumerations report to a query only if they are started from it. -/
theorem ownerOf_step {command : Command τ} {id query : Nat}
    (unstarted : command.starts ≠ some query)
    (owned : (session.step env command).session.ownerOf id = some query) :
    session.ownerOf id = some query := by
  have after := session.pulls_step env command
  rw [ownerOf] at owned ⊢
  generalize (session.step env command).session.pulls = pulls at after owned
  cases after with
  | kept => exact owned
  | added new starts =>
    rw [List.getElem?_append] at owned
    split at owned
    · exact owned
    · have last : new.owner = some query := by
        cases position : id - session.pulls.length with
        | zero => simpa [position] using owned
        | succ => simp [position] at owned
      exact (unstarted (starts _ last)).elim
  | pulled other pull _ found =>
    rw [List.getElem?_set] at owned
    split at owned
    next same =>
      subst same
      split at owned
      · rw [found]
        exact pull.owner_advance.symm.trans owned
      · cases owned
    next => exact owned

/-- Pulling gives what the enumeration gives, and does its work. -/
theorem step_next {id : Nat} {pull : Pull τ} (found : session.pulls[id]? = some pull) :
    session.step env (.next id) = session.pullNext id pull := by
  rw [step, found]

theorem getElem?_pulls_next {id : Nat} {pull : Pull τ} (found : session.pulls[id]? = some pull) :
    (session.step env (.next id)).session.pulls[id]? = some pull.advance := by
  obtain ⟨inside, -⟩ := List.getElem?_eq_some_iff.mp found
  rw [step_next env found]
  exact List.getElem?_set_self inside

end Session
end DocQuery
