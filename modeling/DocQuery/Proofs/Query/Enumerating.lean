import DocQuery.Entity.Catalog
import DocQuery.Proofs.Query.Run

/-!
# Enumerating a query

A query is enumerated by an iteration or by a stream. Starting either executes the query once
if it compiles, and what pulls then give is decided: `enumeration_of_query` says that the
items are those of `Session.reference`, whether the enumeration is drained at once or pulled
in the midst of other commands, and in which state it leaves the query.
-/
namespace DocQuery

variable {τ : Type}

/-- The state of a query that was enumerated to the end. -/
def stateBehind (items : List (ItemResult τ)) : QueryState :=
  if items.any isFailed then .faulted else .exhausted

/-- The ways to enumerate a query. -/
inductive Mode where
  | iteration
  | stream
  deriving DecidableEq

namespace Mode

/-- The command that starts an enumeration. -/
def starting : Mode → Nat → Command τ
  | .iteration => .iterate
  | .stream => .stream

/-- The command that starts an enumeration and drains it. -/
def draining : Mode → Nat → Command τ
  | .iteration => .iterateAll
  | .stream => .streamAll

/-- The enumeration of a started query. -/
def enumeration : Mode → Start τ → Enumeration τ
  | .iteration, start => .iteration (Iteration.ofStart start)
  | .stream, start => .stream (Stream.ofStart start)

/-- The state of a query whose enumeration has started. -/
def startState : Mode → Start τ → QueryState
  | .iteration, start => Iteration.startState start
  | .stream, _ => .enumerating

/-- The script of an enumeration. -/
def script : Mode → Start τ → Script (ItemResult τ)
  | .iteration => Iteration.script
  | .stream => Stream.script

section

variable (mode : Mode) (start : Start τ)

theorem follows_script : (mode.enumeration start).Follows (mode.script start) := by
  cases mode with
  | iteration => exact Iteration.follows_script start
  | stream => exact Stream.follows_script start

theorem reports_script : (mode.script start).Reports (mode.startState start) := by
  cases mode with
  | iteration => exact Iteration.reports_script start
  | stream => exact Stream.reports_script start

theorem drain_eq (stop : ItemResult τ → Bool) (state : QueryState) :
    (mode.enumeration start).drain stop state = (mode.script start).drained stop state := by
  cases mode with
  | iteration => exact Iteration.drain_eq start stop state
  | stream => exact Stream.drain_eq start stop state

theorem owner_enumeration (query : Nat) :
    Pull.owner ⟨query, mode.enumeration start⟩ = some query := by
  cases mode <;> rfl

/-- A query enumerates behind a start, unless its only item is an error that is known already. -/
theorem startState_cases :
    mode.startState start = .enumerating ∨
      mode.startState start = .faulted ∧
        ∃ error, (mode.script start).items = [.error error] := by
  match mode, start with
  | .stream, _ => exact .inl rfl
  | .iteration, .error error => exact .inr ⟨rfl, error, rfl⟩
  | .iteration, .ok (_, .error error) => exact .inr ⟨rfl, .execution error, rfl⟩
  | .iteration, .ok (_, .ok _) => exact .inl rfl

/-- Answers to the end leave the state behind their items. -/
theorem foldl_after_startState (rest : List (Option (ItemResult τ))) :
    ((mode.script start).items.map some ++ none :: rest).foldl QueryState.after
        (mode.startState start) = stateBehind (mode.script start).items := by
  rcases mode.startState_cases start with enumerating | ⟨faulted, error, single⟩
  · rw [enumerating, foldl_after, lifecycle_of_end, stateBehind]
  · rw [faulted, foldl_after_of_ended QueryState.noConfusion, single]
    rfl

/-- Draining an enumeration leaves the state behind its items. -/
theorem state_drained :
    ((mode.script start).drained (fun _ => false) (mode.startState start)).state =
      stateBehind (mode.script start).items := by
  rw [(mode.reports_script start).drained]
  exact mode.foldl_after_startState start []

end

end Mode

namespace Session

variable (env : Environment τ) (session : Session τ)

theorem items_iteration (query : Query) :
    (Iteration.script (session.start env query).start).items = session.reference env query := by
  have prepares := session.prepares_start env query
  rw [reference]
  generalize (session.start env query).start = start, session.resultsOf env query = results at *
  cases prepares with
  | refused error => rfl
  | unanswered error => rfl
  | answered results => exact Iteration.items_scriptOf _ 0 results

theorem items_stream (query : Query) :
    (Stream.script (session.start env query).start).items = session.reference env query := by
  have prepares := session.prepares_start env query
  rw [reference]
  generalize (session.start env query).start = start, session.resultsOf env query = results at *
  cases prepares with
  | refused error => rfl
  | unanswered error => exact Stream.items_scriptOf _ [.error error]
  | answered results => exact Stream.items_scriptOf _ results

/-- Every script of a query has the items that the query stands for. -/
theorem items_script (mode : Mode) (query : Query) :
    (mode.script (session.start env query).start).items = session.reference env query := by
  cases mode with
  | iteration => exact session.items_iteration env query
  | stream => exact session.items_stream env query

/-- A session behind an enumeration that was started and drained. -/
def drainedBy (id : Nat) (query : Query) (drained : Drained τ) : Session τ :=
  { (session.start env query).session.setState id drained.state with
    journal := session.journal.applyAll drained.effects }

theorem executions_drainedBy (id : Nat) (query : Query) (drained : Drained τ) :
    (session.drainedBy env id query drained).store.executions =
      session.store.executions + if (env.build query).toBool then 1 else 0 :=
  session.executions_start env query

section

variable {session} (mode : Mode) {id : Nat} {query : Query}
  (found : session.queries[id]? = some query)

include found

theorem stateOf_started (state : QueryState) :
    ((session.start env query).session.setState id state).stateOf id = state := by
  obtain ⟨known, -⟩ := List.getElem?_eq_some_iff.mp found
  rw [← session.queries_start env query] at known
  exact stateOf_setState known state

theorem stateOf_drainedBy (drained : Drained τ) :
    (session.drainedBy env id query drained).stateOf id = drained.state :=
  stateOf_started env found drained.state

/-- Starting an enumeration adds it and sets the state of its query. -/
theorem step_starting :
    ∃ entries, session.step env (mode.starting id) =
      let started := session.start env query
      { session := (started.session.setState id (mode.startState started.start)).addPull id
          (mode.enumeration started.start)
        answer := .pull session.pulls.length
        entries } := by
  rw [← session.pulls_start env query]
  cases mode <;> exact ⟨_, by rw [Mode.starting, step, withQuery, found]; rfl⟩

/-- Draining an enumeration that was just started drains its script. -/
theorem drain_started (stop : ItemResult τ → Bool) (entries : List Log.Entry)
    (answer : List (ItemResult τ) → Answer τ) :
    let started := session.start env query
    let drained := (mode.script started.start).drained stop (mode.startState started.start)
    (started.session.setState id (mode.startState started.start)).drain id stop
        (mode.enumeration started.start) entries answer =
      { session := session.drainedBy env id query drained
        answer := answer drained.items
        entries := entries ++ drained.entries } := by
  intro started drained
  have journal : (started.session.setState id (mode.startState started.start)).journal =
      session.journal := session.journal_start env query
  rw [drain, stateOf_started env found, mode.drain_eq, setState_setState, journal]
  rfl

theorem step_draining :
    ∃ entries, session.step env (mode.draining id) =
      let started := session.start env query
      let drained := (mode.script started.start).drained (fun _ => false)
        (mode.startState started.start)
      { session := session.drainedBy env id query drained
        answer := .items (session.reference env query)
        entries } := by
  rw [← session.items_script env mode query, ← cutAfter_never (mode.script _).items,
    ← Script.items_drained _ (mode.startState (session.start env query).start)]
  cases mode with
  | iteration =>
    rw [Mode.draining, step, withQuery, found]
    exact ⟨_, drain_started env .iteration found (fun _ => false) _ .items⟩
  | stream =>
    rw [Mode.draining, step, withQuery, found]
    exact ⟨_, drain_started env .stream found (fun _ => false) _ .items⟩

theorem stateOf_draining :
    (session.step env (mode.draining id)).session.stateOf id =
      stateBehind (session.reference env query) := by
  obtain ⟨entries, stepped⟩ := step_draining env mode found
  rw [stepped, ← session.items_script env mode query, ← mode.state_drained]
  exact stateOf_drainedBy env found _

/-- The enumeration that was just started is the last of the session. -/
theorem getElem?_pulls_starting :
    (session.step env (mode.starting id)).session.pulls[session.pulls.length]? =
      some ⟨id, mode.enumeration (session.start env query).start⟩ := by
  obtain ⟨entries, stepped⟩ := step_starting env mode found
  rw [stepped]
  change ((session.start env query).session.pulls ++ [_])[session.pulls.length]? = _
  rw [session.pulls_start env query]
  exact List.getElem?_concat_length

theorem stateOf_starting :
    (session.step env (mode.starting id)).session.stateOf id =
      mode.startState (session.start env query).start := by
  obtain ⟨entries, stepped⟩ := step_starting env mode found
  rw [stepped]
  exact stateOf_started env found _

theorem executions_starting :
    (session.step env (mode.starting id)).session.store.executions =
      session.store.executions + if (env.build query).toBool then 1 else 0 := by
  obtain ⟨entries, stepped⟩ := step_starting env mode found
  rw [stepped]
  exact session.executions_start env query

/-- Whatever other commands come between, pulls give the items and then the end. -/
theorem answersTo_run_starting (commands : List (Command τ)) :
    let pulls := pullsFrom session.pulls.length commands
    answersTo session.pulls.length commands
        ((session.step env (mode.starting id)).session.run env commands).2 =
      ((session.reference env query).map some ++ List.replicate pulls none).take pulls := by
  intro pulls
  have follows := mode.follows_script (session.start env query).start
  rw [answersTo_run env (getElem?_pulls_starting env mode found) follows, Script.answers_eq,
    session.items_script env mode query]

/-- The state of a query goes on as its undisturbed latest enumeration says. -/
theorem stateOf_run_starting {commands : List (Command τ)}
    (undisturbed : (session.step env (mode.starting id)).session.Undisturbed env commands id
      session.pulls.length) :
    ((session.step env (mode.starting id)).session.run env commands).1.stateOf id =
      (answersTo session.pulls.length commands
        ((session.step env (mode.starting id)).session.run env commands).2).foldl QueryState.after
          (mode.startState (session.start env query).start) := by
  have known : id < (session.step env (mode.starting id)).session.queries.length := by
    obtain ⟨known, -⟩ := List.getElem?_eq_some_iff.mp found
    exact Nat.lt_of_lt_of_le known (length_queries_step env _)
  have state := stateOf_starting env mode found
  have reports := mode.reports_script (session.start env query).start
  rw [← state]
  exact stateOf_run env known (getElem?_pulls_starting env mode found) (mode.owner_enumeration _ _)
    (mode.follows_script _) (state ▸ reports) undisturbed

/-- An undisturbed enumeration that was pulled to its end leaves the state behind its items. -/
theorem stateOf_run_starting_of_end {commands : List (Command τ)}
    (undisturbed : (session.step env (mode.starting id)).session.Undisturbed env commands id
      session.pulls.length)
    (enough : (session.reference env query).length < pullsFrom session.pulls.length commands) :
    ((session.step env (mode.starting id)).session.run env commands).1.stateOf id =
      stateBehind (session.reference env query) := by
  -- The items are followed by the end at least once, and only that once has an effect.
  obtain ⟨more, count⟩ := Nat.exists_eq_add_of_lt enough
  have answers : answersTo session.pulls.length commands
      ((session.step env (mode.starting id)).session.run env commands).2 =
        (session.reference env query).map some ++ none :: List.replicate more none := by
    rw [answersTo_run_starting env mode found, count, Nat.add_assoc, List.take_append,
      List.length_map, Nat.add_sub_cancel_left, List.take_of_length_le (by simp),
      List.take_replicate, Nat.min_eq_left (Nat.le_add_left _ _), List.replicate_succ]
  rw [stateOf_run_starting env mode found undisturbed, answers,
    ← session.items_script env mode query]
  exact mode.foldl_after_startState _ _

end

/-- An iteration and a stream of a query give the same: the items that the query stands for and
then the end, drained at once or pulled in the midst of any commands. Either executes the query
once if it compiles and not at all otherwise, and leaves it faulted if one of the items is an
error and exhausted otherwise, unless another enumeration of it has a say in its state. -/
theorem enumeration_of_query (mode : Mode) (env : Environment τ) (session : Session τ) {id : Nat}
    {query : Query} (found : session.queries[id]? = some query) :
    let items := session.reference env query
    let executions := session.store.executions + if (env.build query).toBool then 1 else 0
    let drained := session.step env (mode.draining id)
    let started := session.step env (mode.starting id)
    let pull := session.pulls.length
    (drained.answer = .items items ∧
      drained.session.store.executions = executions ∧
      drained.session.stateOf id = stateBehind items) ∧
    (started.answer = .pull pull ∧ started.session.store.executions = executions) ∧
    ∀ commands : List (Command τ),
      let pulls := pullsFrom pull commands
      let run := started.session.run env commands
      answersTo pull commands run.2 = (items.map some ++ List.replicate pulls none).take pulls ∧
      ((∀ command ∈ commands, command.pulls.isSome) → run.1.store.executions = executions) ∧
      (started.session.Undisturbed env commands id pull → items.length < pulls →
        run.1.stateOf id = stateBehind items) := by
  intro items executions drained started pull
  refine ⟨⟨?_, ?_, stateOf_draining env mode found⟩, ⟨?_, executions_starting env mode found⟩, ?_⟩
  · obtain ⟨entries, stepped⟩ := step_draining env mode found
    exact congrArg Reply.answer stepped
  · obtain ⟨entries, stepped⟩ := step_draining env mode found
    exact (congrArg (·.session.store.executions) stepped).trans
      (session.executions_drainedBy env id query _)
  · obtain ⟨entries, stepped⟩ := step_starting env mode found
    exact congrArg Reply.answer stepped
  · intro commands pulls run
    refine ⟨answersTo_run_starting env mode found commands, ?_,
      stateOf_run_starting_of_end env mode found⟩
    intro pulled
    have kept : run.1.store = started.session.store := store_run_of_pulls env pulled
    rw [kept]
    exact executions_starting env mode found

/-- Documents as they are. -/
def plainDocuments : Environment Json :=
  ⟨Catalog.doc, .insertion⟩

def unmapped : FieldMapping := fun _ _ => none

/-- A store of two documents that fails behind the first. -/
def brokenStore : Store :=
  { documents := [.obj [("Id", .str "1")], .obj [("Id", .str "2")]]
    failure := some (.midStream 1 "gone") }

/-- The query for all documents. -/
def everything : Query := { mapping := unmapped }

/-- The query for everything in a broken store, of which an iteration has ended. -/
def brokenSession : Session Json :=
  { store := brokenStore, queries := [everything], pulls := [⟨0, .iteration {}⟩] }

theorem undisturbed_broken (mode : Mode) {commands : List (Command Json)}
    (latest : ∀ command ∈ commands, command.starts ≠ some 0) :
    (brokenSession.step plainDocuments (mode.starting 0)).session.Undisturbed plainDocuments
      commands 0 1 where
  latest := latest
  older other different owned := by
    match other with
    | 0 => cases mode <;> exact .inl ⟨⟨0, .iteration {}⟩, rfl, rfl⟩
    | 1 => exact (different rfl).elim
    | _ + 2 => cases mode <;> cases owned

theorem enumeration_of_query_broken :
    let started := brokenSession.step plainDocuments (.stream 0)
    let commands : List (Command Json) := [.next 1, .next 0, .next 1, .next 1]
    let run := started.session.run plainDocuments commands
    brokenSession.queries[0]? = some everything ∧
      started.session.Undisturbed plainDocuments commands 0 1 ∧
      answersTo 1 commands run.2 =
        [some (.ok (.entity (.obj [("Id", .str "1")]))),
          some (.error (.execution (.failed "gone"))), none] ∧
      run.1.stateOf 0 = .faulted := by
  intro started commands run
  have undisturbed : started.session.Undisturbed plainDocuments commands 0 1 :=
    undisturbed_broken .stream (by simp [commands, Command.starts])
  obtain ⟨-, -, pulled⟩ := enumeration_of_query .stream plainDocuments brokenSession
    (show brokenSession.queries[0]? = some everything from rfl)
  obtain ⟨answers, -, state⟩ := pulled commands
  refine ⟨rfl, undisturbed, ?_, ?_⟩
  · exact answers.trans rfl
  · exact state undisturbed (by decide)

end Session
end DocQuery
