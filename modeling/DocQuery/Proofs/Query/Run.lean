import DocQuery.Proofs.Query.Steps

/-!
# Enumerations in a run of a session

Whatever else happens in a session, the answers to the pulls from one enumeration are those
of its script (`answersTo_run`). As long as no other enumeration of the query is started, and
the older ones have ended or give nothing but items, the state of the query goes on as these
answers say (`stateOf_run`).
-/
namespace DocQuery

variable {τ : Type}

/-- The items that an answer shows. -/
def Answer.pulled : Answer τ → List (Option (ItemResult τ))
  | .item given => [given]
  | _ => []

/-- The answers to the pulls from one enumeration, out of the answers to all commands. -/
def answersTo (id : Nat) : List (Command τ) → List (Answer τ × List Log.Entry) →
    List (Option (ItemResult τ))
  | command :: commands, reply :: replies =>
    (if command.pulls = some id then reply.1.pulled else []) ++ answersTo id commands replies
  | _, _ => []

/-- How often commands pull from an enumeration. -/
def pullsFrom (id : Nat) (commands : List (Command τ)) : Nat :=
  commands.countP (·.pulls = some id)

theorem Command.eq_next {command : Command τ} {id : Nat} (pulls : command.pulls = some id) :
    command = .next id := by
  cases command <;> cases pulls
  rfl

theorem Pull.query_of_owner {pull : Pull τ} {query : Nat} (owner : pull.owner = some query) :
    pull.query = query := by
  rcases pull with ⟨_, _ | _ | _⟩ <;> cases owner <;> rfl

/-- A pull that gives an item leaves the state of the query alone. -/
theorem Enumeration.transition_next_of_item {enumeration : Enumeration τ} {item : Item τ}
    (given : enumeration.next.item = some (.ok item)) : enumeration.next.transition = .keep := by
  cases enumeration with
  | cursor cursor => exact cursor.transition_next
  | iteration iteration =>
    rcases iteration with ⟨_ | error, _ | cursor⟩
    · cases given
    · change cursor.next.item = _ at given
      simp only [next, Iteration.next, given]
    · cases given
    · cases given
  | stream stream =>
    cases stream with
    | refused | ending | ended => cases given
    | running m results =>
      cases results with
      | nil => cases given
      | cons result rest =>
        have made : (m.make result).item = .ok item := Option.some.inj given
        simp only [next, Stream.next, made]
    | faulted m results => cases results <;> cases given

namespace Session

variable (env : Environment τ) {session : Session τ}

/-- The queries that commands enumerate, one for each enumeration, in the order in which these
are started. -/
def enumeratedIn (session : Session τ) : List (Command τ) → List Query
  | [] => []
  | command :: rest =>
    (session.enumerated command).toList ++ (session.step env command).session.enumeratedIn rest

/-- Commands in two parts are carried out one part after the other. -/
theorem run_append (first second : List (Command τ)) :
    session.run env (first ++ second) =
      (((session.run env first).1.run env second).1,
        (session.run env first).2 ++ ((session.run env first).1.run env second).2) := by
  induction first generalizing session with
  | nil => rfl
  | cons command first ih =>
    rw [List.cons_append, run, ih]
    rfl

theorem answersTo_run_cons (id : Nat) (command : Command τ) (commands : List (Command τ)) :
    answersTo id (command :: commands) (session.run env (command :: commands)).2 =
      (if command.pulls = some id then (session.step env command).answer.pulled else []) ++
        answersTo id commands ((session.step env command).session.run env commands).2 := rfl

theorem answersTo_run_next {id : Nat} {pull : Pull τ} (found : session.pulls[id]? = some pull)
    (commands : List (Command τ)) :
    answersTo id (.next id :: commands) (session.run env (.next id :: commands)).2 =
      pull.enumeration.next.item ::
        answersTo id commands ((session.step env (.next id)).session.run env commands).2 := by
  rw [answersTo_run_cons, step_next env found]
  exact congrArg (· ++ _) (if_pos rfl)

theorem answersTo_run_of_unpulled {command : Command τ} {id : Nat}
    (unpulled : command.pulls ≠ some id) (commands : List (Command τ)) :
    answersTo id (command :: commands) (session.run env (command :: commands)).2 =
      answersTo id commands ((session.step env command).session.run env commands).2 := by
  rw [answersTo_run_cons, if_neg unpulled, List.nil_append]

/-- The answers to the pulls from an enumeration are those of its script. -/
theorem answersTo_run {id : Nat} {pull : Pull τ} {script : Script (ItemResult τ)}
    (found : session.pulls[id]? = some pull) (follows : pull.enumeration.Follows script)
    (commands : List (Command τ)) :
    answersTo id commands (session.run env commands).2 =
      script.answers (pullsFrom id commands) := by
  induction commands generalizing session pull script with
  | nil => rfl
  | cons command commands ih =>
    -- Only a pull from the enumeration itself moves it on in its script.
    by_cases pulls : command.pulls = some id
    · cases Command.eq_next pulls
      obtain ⟨given, -, behind⟩ := follows.step
      have tail := ih (getElem?_pulls_next env found) behind
      have counted : pullsFrom id (.next id :: commands) = pullsFrom id commands + 1 :=
        List.countP_cons_of_pos (decide_eq_true pulls)
      rw [answersTo_run_next env found, tail, given, counted, Script.answers]
    · have tail := ih (getElem?_pulls_step env found pulls) follows
      have uncounted : pullsFrom id (command :: commands) = pullsFrom id commands :=
        List.countP_cons_of_neg (by simpa using pulls)
      rw [answersTo_run_of_unpulled env pulls, tail, uncounted]

/-- Pulls leave the store alone. -/
theorem store_run_of_pulls {commands : List (Command τ)}
    (pulls : ∀ command ∈ commands, command.pulls.isSome) :
    (session.run env commands).1.store = session.store := by
  induction commands generalizing session with
  | nil => rfl
  | cons command commands ih =>
    obtain ⟨id, pulled⟩ := Option.isSome_iff_exists.mp (pulls command List.mem_cons_self)
    cases Command.eq_next pulled
    have kept : (session.step env (.next id)).session.store = session.store := by
      rw [step]
      cases session.pulls[id]? <;> rfl
    rw [← kept]
    exact ih fun later listed => pulls later (List.mem_cons_of_mem _ listed)

/-- Pulling an enumeration over and over has the effects of its script. -/
theorem journal_run_of_pulls {id : Nat} {pull : Pull τ} {script : Script (ItemResult τ)}
    (found : session.pulls[id]? = some pull) (follows : pull.enumeration.Follows script)
    (pulls : Nat) :
    (session.run env (List.replicate pulls (.next id))).1.journal =
      session.journal.applyAll (script.effectsOf pulls) := by
  induction pulls generalizing session pull script with
  | zero => rfl
  | succ pulls ih =>
    obtain ⟨-, worked, behind⟩ := follows.step
    have tail := ih (getElem?_pulls_next env found) behind
    have journal : (session.step env (.next id)).session.journal =
        session.journal.applyAll script.work.effects := by
      rw [step_next env found, ← worked]
      rfl
    rw [Script.effectsOf, Journal.applyAll, List.foldl_append]
    rw [journal] at tail
    exact tail

/-- An enumeration has no say in the state of its query: it has ended already, or gives an item
each time when it is pulled. -/
def Harmless (session : Session τ) (commands : List (Command τ)) (id : Nat) : Prop :=
  (∃ pull, session.pulls[id]? = some pull ∧ pull.enumeration.Idle) ∨
    ∀ answer ∈ answersTo id commands (session.run env commands).2, ∃ item, answer = some (.ok item)

/-- An enumeration has the say in the state of its query: no other one is started, and the
others that there are have none. -/
structure Undisturbed (session : Session τ) (commands : List (Command τ)) (query pull : Nat) :
    Prop where
  latest : ∀ command ∈ commands, command.starts ≠ some query
  older : ∀ other, other ≠ pull → session.ownerOf other = some query →
    session.Harmless env commands other

variable {env}

theorem Harmless.tail {command : Command τ} {commands : List (Command τ)} {id : Nat}
    (harmless : session.Harmless env (command :: commands) id) :
    (session.step env command).session.Harmless env commands id := by
  rcases harmless with ⟨pull, found, idle⟩ | gives
  · have same : pull.advance = pull := by
      rw [Pull.advance, idle]
    refine .inl ⟨pull, ?_, idle⟩
    by_cases pulls : command.pulls = some id
    · cases Command.eq_next pulls
      rw [getElem?_pulls_next env found, same]
    · exact getElem?_pulls_step env found pulls
  · exact .inr fun answer listed => gives answer (List.mem_append_right _ listed)

theorem Undisturbed.tail {command : Command τ} {commands : List (Command τ)} {query pull : Nat}
    (undisturbed : session.Undisturbed env (command :: commands) query pull) :
    (session.step env command).session.Undisturbed env commands query pull where
  latest later listed := undisturbed.latest later (List.mem_cons_of_mem _ listed)
  older other different owned :=
    have unstarted := undisturbed.latest command List.mem_cons_self
    (undisturbed.older other different (ownerOf_step env unstarted owned)).tail

/-- A pull from a harmless enumeration keeps every state. -/
theorem Harmless.transition {commands : List (Command τ)} {id : Nat} {pull : Pull τ}
    (harmless : session.Harmless env (.next id :: commands) id)
    (found : session.pulls[id]? = some pull) : pull.enumeration.next.transition = .keep := by
  rcases harmless with ⟨other, here, idle⟩ | gives
  · cases found.symm.trans here
    rw [idle]
  · obtain ⟨item, given⟩ := gives pull.enumeration.next.item (by
      rw [answersTo_run_next env found]
      exact List.mem_cons_self)
    exact Enumeration.transition_next_of_item given

variable (env)

/-- A command keeps the state of a query if it starts no enumeration of it and every
enumeration of it that is pulled is harmless. -/
theorem stateOf_step_of_harmless {command : Command τ} (commands : List (Command τ)) {id : Nat}
    (unstarted : command.starts ≠ some id)
    (older : ∀ other, command.pulls = some other → session.ownerOf other = some id →
      session.Harmless env (command :: commands) other) :
    (session.step env command).session.stateOf id = session.stateOf id := by
  apply stateOf_step_of_quiet env unstarted
  intro pulled pull pulls found owner
  cases Command.eq_next pulls
  have harmless := older pulled rfl (by rw [ownerOf, found]; exact owner)
  rw [harmless.transition found]
  rfl

/-- A query of which no enumeration is started or known keeps its state. -/
theorem stateOf_run_of_unstarted {id : Nat} {commands : List (Command τ)}
    (fresh : ∀ other, session.ownerOf other ≠ some id)
    (unstarted : ∀ command ∈ commands, command.starts ≠ some id) :
    (session.run env commands).1.stateOf id = session.stateOf id := by
  induction commands generalizing session with
  | nil => rfl
  | cons command commands ih =>
    have here := unstarted command List.mem_cons_self
    have kept := stateOf_step_of_harmless env commands here
      fun other _ owned => (fresh other owned).elim
    rw [← kept]
    exact ih (fun other owned => fresh other (ownerOf_step env here owned))
      fun later listed => unstarted later (List.mem_cons_of_mem _ listed)

/-- The state of a query goes on as the answers of its latest enumeration say. -/
theorem stateOf_run {id query : Nat} {pull : Pull τ} {script : Script (ItemResult τ)}
    {commands : List (Command τ)} (known : query < session.queries.length)
    (found : session.pulls[id]? = some pull) (owner : pull.owner = some query)
    (follows : pull.enumeration.Follows script) (reports : script.Reports (session.stateOf query))
    (undisturbed : session.Undisturbed env commands query id) :
    (session.run env commands).1.stateOf query =
      (answersTo id commands (session.run env commands).2).foldl QueryState.after
        (session.stateOf query) := by
  induction commands generalizing session pull script with
  | nil => rfl
  | cons command commands ih =>
    have knownLater := Nat.lt_of_lt_of_le known (length_queries_step env command)
    -- The script reports what a pull from the enumeration does to the state. Any other command
    -- keeps the state, since the enumeration is undisturbed.
    by_cases pulls : command.pulls = some id
    · cases Command.eq_next pulls
      obtain ⟨given, worked, behind⟩ := follows.step
      obtain ⟨reported, reportsLater⟩ := reports.step
      have state : (session.step env (.next id)).session.stateOf query =
          (session.stateOf query).after script.answer := by
        cases Pull.query_of_owner owner
        rw [← reported, ← worked, step_next env found]
        exact stateOf_setState known _
      have tail := ih knownLater (getElem?_pulls_next env found)
        ((Pull.owner_advance pull).trans owner) behind (state ▸ reportsLater) undisturbed.tail
      rw [answersTo_run_next env found, given, List.foldl_cons, ← state]
      exact tail
    · have state := stateOf_step_of_harmless env commands
        (undisturbed.latest command List.mem_cons_self)
        fun other pulled owned => undisturbed.older other (fun same => pulls (same ▸ pulled)) owned
      have tail := ih knownLater (getElem?_pulls_step env found pulls) owner follows
        (state ▸ reports) undisturbed.tail
      rw [answersTo_run_of_unpulled env pulls, ← state]
      exact tail

end Session
end DocQuery
