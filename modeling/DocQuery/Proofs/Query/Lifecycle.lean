import DocQuery.Proofs.Query.Enumerating

/-!
# The state of a query and its latest enumeration

The state of a query is meant to be that of the enumeration which was started last. All
enumerations of a query write the same state, so this holds as long as no older one finds an
error or its end (`stateOf_latest`); an older one that does is reported like the latest.
-/
namespace DocQuery

variable {τ : Type}

namespace Session

variable (env : Environment τ) (session : Session τ)

/-- The state that an enumeration of a query is in by what it gave. An iteration that could not
be started has failed before it gives anything. -/
def lifecycleIn (query : Query) (mode : Mode) (answers : List (Option (ItemResult τ))) :
    QueryState :=
  if mode = .iteration ∧ (session.resultsOf env query).toBool = false then .faulted
  else lifecycle answers

theorem startState_start (mode : Mode) (query : Query) :
    mode.startState (session.start env query).start =
      if mode = .iteration ∧ (session.resultsOf env query).toBool = false then .faulted
      else .enumerating := by
  cases mode with
  | stream => rfl
  | iteration =>
    have prepares := session.prepares_start env query
    generalize (session.start env query).start = start, session.resultsOf env query = results at *
    cases prepares <;> rfl

theorem foldl_after_start (mode : Mode) (query : Query)
    (answers : List (Option (ItemResult τ))) :
    answers.foldl QueryState.after (mode.startState (session.start env query).start) =
      session.lifecycleIn env query mode answers := by
  rw [startState_start, lifecycleIn]
  split
  · exact foldl_after_of_ended QueryState.noConfusion answers
  · exact foldl_after answers

theorem stateOf_run_ofStore (store : Store) (mapping : FieldMapping) (config : Config) {id : Nat}
    {commands : List (Command τ)} (unstarted : ∀ command ∈ commands, command.starts ≠ some id) :
    ((Session.ofStore store mapping config : Session τ).run env commands).1.stateOf id =
      .unmaterialized := by
  have fresh : ∀ other, (Session.ofStore store mapping config : Session τ).ownerOf other ≠ some id :=
    fun other => by simp [ownerOf, ofStore]
  rw [stateOf_run_of_unstarted env fresh unstarted]
  cases id <;> rfl

end Session

/-- An enumeration that has not ended reports what it gives to a query that enumerates. -/
theorem Pull.apply_transition_next {pull : Pull τ} {query : Nat} (owner : pull.owner = some query)
    (going : ¬ pull.enumeration.Idle) :
    pull.enumeration.next.transition.apply .enumerating =
      QueryState.after .enumerating pull.enumeration.next.item := by
  rcases pull with ⟨_, cursor | iteration | stream⟩
  · cases owner
  · rcases iteration with ⟨_ | error, _ | cursor⟩
    · exact (going rfl).elim
    · simp only [Enumeration.next, Iteration.next]
      rcases cursor.next.item with _ | _ | _ <;> rfl
    · rfl
    · rfl
  · cases stream with
    | refused error => rfl
    | ending => rfl
    | ended => exact (going rfl).elim
    | faulted m results => cases results <;> rfl
    | running m results =>
      cases results with
      | nil => rfl
      | cons result rest =>
        simp only [Enumeration.next, Stream.next]
        cases (m.make result).item <;> rfl

namespace Session

variable {session : Session τ}

/-- While a query enumerates, every enumeration of it is reported alike. -/
theorem stateOf_next_of_enumerating (env : Environment τ) {other id : Nat} {pull : Pull τ}
    (found : session.pulls[other]? = some pull) (owner : pull.owner = some id)
    (going : ¬ pull.enumeration.Idle) (enumerating : session.stateOf id = .enumerating) :
    (session.step env (.next other)).session.stateOf id =
      QueryState.after .enumerating pull.enumeration.next.item := by
  have known : id < session.queries.length := by
    refine Nat.lt_of_not_le fun unknown => ?_
    rw [stateOf, List.getElem?_eq_none unknown] at enumerating
    cases enumerating
  rw [← pull.apply_transition_next owner going, ← enumerating, step_next env found]
  cases Pull.query_of_owner owner
  exact stateOf_setState known _

/-- A query is unmaterialized until an enumeration of it is started, and from then on in the
state of the latest one, as long as the older ones that are pulled have ended before or give
nothing but items. While the query enumerates, an older one that has not ended is reported as
if it were the latest. -/
theorem stateOf_latest (env : Environment τ) (id : Nat) :
    (∀ store mapping config (commands : List (Command τ)),
      (∀ command ∈ commands, command.starts ≠ some id) →
        ((Session.ofStore store mapping config).run env commands).1.stateOf id = .unmaterialized) ∧
    (∀ (session : Session τ) query mode commands, session.queries[id]? = some query →
      let started := (session.step env (mode.starting id)).session
      let run := started.run env commands
      started.Undisturbed env commands id session.pulls.length →
        run.1.stateOf id =
          session.lifecycleIn env query mode (answersTo session.pulls.length commands run.2)) ∧
    ∀ (session : Session τ) other pull, session.pulls[other]? = some pull →
      pull.owner = some id → ¬ pull.enumeration.Idle → session.stateOf id = .enumerating →
        (session.step env (.next other)).session.stateOf id =
          QueryState.after .enumerating pull.enumeration.next.item := by
  refine ⟨fun store mapping config _ => stateOf_run_ofStore env store mapping config, ?_,
    fun _ _ _ => stateOf_next_of_enumerating env⟩
  intro session query mode commands found started run undisturbed
  rw [← session.foldl_after_start env mode query]
  exact stateOf_run_starting env mode found undisturbed

theorem stateOf_latest_broken :
    let fresh := (Session.ofStore brokenStore unmapped {}).run plainDocuments [.duplicate 0, .iterate 0]
    let started := (brokenSession.step plainDocuments (.iterate 0)).session
    let run := started.run plainDocuments [.next 1, .next 0, .next 1]
    fresh.1.stateOf 1 = .unmaterialized ∧ run.1.stateOf 0 = .faulted ∧
      (started.step plainDocuments (.next 1)).session.stateOf 0 = .enumerating := by
  intro fresh started run
  refine ⟨?_, ?_, ?_⟩
  · apply (stateOf_latest plainDocuments 1).1
    simp [Command.starts]
  · exact (stateOf_latest plainDocuments 0).2.1 brokenSession everything .iteration _ rfl
      (undisturbed_broken .iteration (by simp [Command.starts]))
  · have going : ¬ (Mode.iteration.enumeration
        (brokenSession.start plainDocuments everything).start).Idle :=
      fun idle => by cases congrArg Pulled.item idle
    exact (stateOf_latest plainDocuments 0).2.2 started 1 _ rfl rfl going rfl

/-- Of two iterations over nothing, the older is pulled to its end. -/
theorem state_is_of_older_iteration :
    let empty : Session Json := .ofStore {} unmapped {}
    let commands : List (Command Json) := [.iterate 0, .iterate 0, .next 0]
    let run := empty.run plainDocuments commands
    answersTo 1 commands run.2 = [] ∧ run.1.stateOf 0 = .exhausted :=
  ⟨rfl, rfl⟩

end Session
end DocQuery
