import DocQuery.Proofs.Query.Enumerating

/-!
# Collecting the items of a query

Three calls drain a new iteration into a list: one takes any items, the others only entities
or only projections. They stop at the first item that they refuse. A refused error is also an
error of the iteration, which faults the query; a refused item of the other kind is not, and
behind it the query still enumerates (`stateOf_collected`).
-/
namespace DocQuery

variable {τ : Type}

/-- Reading stops at an error, so that what is behind it does not matter. -/
theorem mapM_cutAfter {α β ε : Type} (read : α → Except ε β) (list : List α) :
    (cutAfter (fun a => (read a).toBool == false) list).mapM read = list.mapM read := by
  induction list with
  | nil => rfl
  | cons a rest ih =>
    rw [cutAfter, List.mapM_cons, List.mapM_cons]
    cases outcome : read a with
    | error error => rfl
    | ok value =>
      change (do let values ← (cutAfter _ rest).mapM read; pure (value :: values)) = _
      rw [ih]
      rfl

theorem toBool_mapM {α β ε : Type} (read : α → Except ε β) (list : List α) :
    (list.mapM read).toBool = list.all fun a => (read a).toBool := by
  induction list with
  | nil => rfl
  | cons a rest ih =>
    rw [List.mapM_cons, List.all_cons, ← ih]
    cases read a with
    | error error => rfl
    | ok value => cases rest.mapM read <;> rfl

/-- An error of a reading is that of an element which cannot be read. -/
theorem mapM_error {α β ε : Type} {read : α → Except ε β} {list : List α} {error : ε}
    (failed : list.mapM read = .error error) : ∃ a ∈ list, read a = .error error := by
  induction list with
  | nil => cases failed
  | cons a rest ih =>
    rw [List.mapM_cons] at failed
    cases outcome : read a with
    | error first =>
      rw [outcome] at failed
      cases failed
      exact ⟨a, List.mem_cons_self, outcome⟩
    | ok value =>
      have later : rest.mapM read = .error error := by
        cases others : rest.mapM read with
        | error other =>
          rw [outcome, others] at failed
          cases failed
          rfl
        | ok values =>
          rw [outcome, others] at failed
          cases failed
      obtain ⟨b, listed, refused⟩ := ih later
      exact ⟨b, List.mem_cons_of_mem _ listed, refused⟩

/-- The answer is an error. -/
def Answer.isFailure : Answer τ → Bool
  | .failed _ => true
  | _ => false

/-- What is made of the values that were read, or the error. -/
def Answer.ofRead {β : Type} (answer : List β → Answer τ) : Except QueryError (List β) → Answer τ
  | .ok values => answer values
  | .error error => .failed error

/-- The calls that collect the items of a query. -/
inductive Reading where
  | list
  | entities
  | projections

namespace Reading

def command : Reading → Nat → Command τ
  | .list => .toList
  | .entities => .toEntities
  | .projections => .toProjections

/-- A call takes the kind of items that a query yields. -/
def takes (reading : Reading) (query : Query) : Bool :=
  match reading with
  | .list => true
  | .entities => !query.selects
  | .projections => query.selects

/-- An item at which a call stops. -/
def refuses : Reading → ItemResult τ → Bool
  | _, .error _ => true
  | .entities, .ok (.projection _) => true
  | .projections, .ok (.entity _) => true
  | _, .ok _ => false

/-- The answer of a call by the items of the query. -/
def answer (type : EntityType τ) : Reading → List (ItemResult τ) → Answer τ
  | .list, items => .ofRead .list (items.mapM fun item => item)
  | .entities, items => .ofRead .entities (items.mapM (entityOf type))
  | .projections, items => .ofRead .projections (items.mapM (projectionOf type))

theorem refuses_list : (refuses .list : ItemResult τ → Bool) = isFailed := by
  funext item
  rcases item with _ | _ | _ <;> rfl

theorem toBool_item :
    (fun item : ItemResult τ => item.toBool == false) = refuses .list := by
  funext item
  rcases item with _ | _ | _ <;> rfl

theorem toBool_entityOf (type : EntityType τ) :
    (fun item => (entityOf type item).toBool == false) = refuses .entities := by
  funext item
  rcases item with _ | _ | _ <;> rfl

theorem toBool_projectionOf (type : EntityType τ) :
    (fun item => (projectionOf type item).toBool == false) = refuses .projections := by
  funext item
  rcases item with _ | _ | _ <;> rfl

theorem isFailure_ofRead {β : Type} {answer : List β → Answer τ}
    (succeeds : ∀ values, (answer values).isFailure = false)
    (read : ItemResult τ → Except QueryError β) (items : List (ItemResult τ)) :
    (Answer.ofRead answer (items.mapM read)).isFailure =
      items.any fun item => (read item).toBool == false := by
  have all := toBool_mapM read items
  cases outcome : items.mapM read with
  | error error =>
    rw [outcome] at all
    simpa [Answer.ofRead, Answer.isFailure, Except.toBool] using all
  | ok values =>
    rw [outcome] at all
    rw [Answer.ofRead, succeeds]
    simpa [Except.toBool] using all

/-- A call fails if it refuses one of the items. -/
theorem isFailure_answer (type : EntityType τ) (reading : Reading) (items : List (ItemResult τ)) :
    (reading.answer type items).isFailure = items.any reading.refuses := by
  cases reading with
  | list => rw [answer, isFailure_ofRead (fun _ => rfl), toBool_item]
  | entities => rw [answer, isFailure_ofRead (fun _ => rfl), toBool_entityOf]
  | projections => rw [answer, isFailure_ofRead (fun _ => rfl), toBool_projectionOf]

/-- A call refuses either none of the items that a query yields or all. -/
theorem refuses_of_isEntity (reading : Reading) {query : Query} {item : Item τ}
    (kind : item.isEntity = !query.selects) :
    reading.refuses (.ok item : ItemResult τ) = !reading.takes query := by
  cases reading <;> cases item <;> simp_all [refuses, takes, Item.isEntity]

end Reading

/-- Draining a script up to its first item keeps the state. -/
theorem Script.state_drained_of_refused {script : Script (ItemResult τ)} {state : QueryState}
    (stops : script.StopsAtFailure) (reports : script.Reports state) {stop : ItemResult τ → Bool}
    (refused : ∀ item, .ok item ∈ script.items → stop (.ok item) = true)
    (yields : script.items.all isFailed = false) : (script.drained stop state).state = state := by
  cases script with
  | ends work => cases yields
  | yields work item rest =>
    rcases item with error | value
    · cases (show rest = .ends .idle from stops)
      cases yields
    · rw [drained, if_pos (refused value List.mem_cons_self)]
      exact reports.1

namespace Session

section

variable (env : Environment τ) {session : Session τ} {id : Nat} {query : Query}
  (found : session.queries[id]? = some query)

include found

/-- Collecting drains the script of an iteration up to the first item that cannot be read, and
answers as if all items were read. -/
theorem collect_eq {β : Type} (read : ItemResult τ → Except QueryError β)
    (answer : List β → Answer τ) :
    ∃ entries, session.collect env id query read answer =
      let started := session.start env query
      let drained := (Iteration.script started.start).drained
        (fun item => (read item).toBool == false) (Iteration.startState started.start)
      { session := session.drainedBy env id query drained
        answer := .ofRead answer ((session.reference env query).mapM read)
        entries } := by
  let stop := fun item => (read item).toBool == false
  have answered : (session.reference env query).mapM read =
      ((Iteration.script (session.start env query).start).drained stop
        (Iteration.startState (session.start env query).start)).items.mapM read := by
    rw [Script.items_drained, session.items_iteration env, mapM_cutAfter]
  rw [answered]
  exact ⟨_, drain_started env .iteration found stop _ fun items => .ofRead answer (items.mapM read)⟩

theorem step_reading (reading : Reading) :
    ∃ entries, session.step env (reading.command id) =
      let started := session.start env query
      let drained := (Iteration.script started.start).drained reading.refuses
        (Iteration.startState started.start)
      { session := session.drainedBy env id query drained
        answer := reading.answer env.type (session.reference env query)
        entries } := by
  cases reading with
  | list =>
    rw [Reading.command, step, withQuery, found, ← Reading.toBool_item]
    exact collect_eq env found (fun item => item) .list
  | entities =>
    rw [Reading.command, step, withQuery, found, ← Reading.toBool_entityOf env.type]
    exact collect_eq env found (entityOf env.type) .entities
  | projections =>
    rw [Reading.command, step, withQuery, found, ← Reading.toBool_projectionOf env.type]
    exact collect_eq env found (projectionOf env.type) .projections

/-- Where a call refuses nothing but errors, it leaves the state behind the items. -/
theorem stateOf_reading_of_taken (reading : Reading)
    (taken : ∀ item ∈ session.reference env query, reading.refuses item = isFailed item) :
    (session.step env (reading.command id)).session.stateOf id =
      stateBehind (session.reference env query) := by
  obtain ⟨entries, stepped⟩ := step_reading env found reading
  have stops := Iteration.stopsAtFailure_script (session.start env query).start
  have behind := Mode.iteration.state_drained (session.start env query).start
  rw [← session.items_iteration env] at taken ⊢
  rw [stepped, stateOf_drainedBy env found, Script.drained_congr taken, stops.drained]
  exact behind

/-- Where a call refuses the first item and it is no error, the query still enumerates. -/
theorem stateOf_reading_of_refused (reading : Reading)
    (refused : ∀ item, .ok item ∈ session.reference env query →
      reading.refuses (.ok item : ItemResult τ) = true)
    (yields : (session.reference env query).all isFailed = false) :
    (session.step env (reading.command id)).session.stateOf id = .enumerating := by
  obtain ⟨entries, stepped⟩ := step_reading env found reading
  have stops := Iteration.stopsAtFailure_script (session.start env query).start
  have reports := Iteration.reports_script (session.start env query).start
  rw [← session.items_iteration env] at refused yields
  have enumerating : Iteration.startState (session.start env query).start = .enumerating := by
    rcases Mode.iteration.startState_cases (session.start env query).start with
      enumerating | ⟨-, error, single⟩
    · exact enumerating
    · rw [show (Iteration.script _).items = [.error error] from single] at yields
      cases yields
  rw [stepped, stateOf_drainedBy env found,
    Script.state_drained_of_refused stops reports refused yields, enumerating]

end

/-- A call that collects leaves the query faulted if it fails and exhausted otherwise, with one
exception: where the query yields items of another kind than the call takes, the call fails at
the first of them and the query still enumerates. Its processors are functions of the entity and
keep no state of their own. -/
theorem stateOf_collected (env : Environment τ) (session : Session τ) (reading : Reading)
    {id : Nat} {query : Query} (found : session.queries[id]? = some query) :
    let reply := session.step env (reading.command id)
    let items := session.reference env query
    reply.answer = reading.answer env.type items ∧
      if reading.takes query || items.all isFailed then
        reply.session.stateOf id = if reply.answer.isFailure then .faulted else .exhausted
      else reply.answer.isFailure = true ∧ reply.session.stateOf id = .enumerating := by
  intro reply items
  have kind : ∀ item, .ok item ∈ items →
      reading.refuses (.ok item : ItemResult τ) = !reading.takes query :=
    fun item listed =>
      reading.refuses_of_isEntity (session.isEntity_of_mem_reference env query listed)
  have answer : reply.answer = reading.answer env.type items := by
    obtain ⟨entries, stepped⟩ := step_reading env found reading
    exact congrArg Reply.answer stepped
  refine ⟨answer, ?_⟩
  rw [answer, reading.isFailure_answer]
  -- The items of a query are all of one kind: a call refuses none but the errors, or the first.
  split
  next taken =>
    have same : ∀ item ∈ items, reading.refuses item = isFailed item := by
      intro item listed
      rcases item with error | value
      · cases reading <;> rfl
      · rcases Bool.or_eq_true_iff.mp taken with taken | failed
        · rw [kind value listed, taken]
          rfl
        · cases List.all_eq_true.mp failed _ listed
    have state : reply.session.stateOf id = stateBehind items :=
      stateOf_reading_of_taken env found reading same
    have failures : items.any reading.refuses = items.any isFailed := by
      rw [Bool.eq_iff_iff, List.any_eq_true, List.any_eq_true]
      exact exists_congr fun item => and_congr_right fun listed => by rw [same item listed]
    rw [state, stateBehind, failures]
  next untaken =>
    obtain ⟨other, yields⟩ := Bool.or_eq_false_iff.mp (Bool.eq_false_iff.mpr untaken)
    have refused : ∀ item, .ok item ∈ items → reading.refuses (.ok item : ItemResult τ) = true := by
      intro item listed
      rw [kind item listed, other]
      rfl
    obtain ⟨item, listed, delivered⟩ := List.all_eq_false.mp yields
    rcases item with error | value
    · exact (delivered rfl).elim
    · exact ⟨List.any_eq_true.mpr ⟨.ok value, listed, refused value listed⟩,
        stateOf_reading_of_refused env found reading refused yields⟩

/-- The query for everything in a store of one document. -/
def plainSession : Session Json :=
  { store := { documents := [.obj [("Id", .str "1")]] }, queries := [everything] }

theorem stateOf_collected_plain :
    plainSession.queries[0]? = some everything ∧
      (plainSession.step plainDocuments (.toEntities 0)).session.stateOf 0 = .exhausted := by
  refine ⟨rfl, ?_⟩
  obtain ⟨-, state⟩ := stateOf_collected plainDocuments plainSession .entities
    (show plainSession.queries[0]? = some everything from rfl)
  exact state

theorem stateOf_collected_unsettled :
    let reply := plainSession.step plainDocuments (.toProjections 0)
    reply.answer.isFailure = true ∧ reply.session.stateOf 0 = .enumerating :=
  ⟨rfl, rfl⟩

end Session
end DocQuery
