import DocQuery.Proofs.Query.Collecting
import DocQuery.Query.DocumentProcessor

/-!
# Which processors are invoked

Draining an iteration invokes the processors for the items that it gives and for no other
result. A stream has already pulled the result behind a failure when it finds that it must
end, so that it invokes processors for one result which is handed to nobody
(`journal_of_enumeration`). Invocations are seen by what they leave in the journal; with
processors that record every entity this shows all of them, in their order.
-/
namespace DocQuery

variable {τ : Type}

open Processor (Invocation)

namespace Session

variable (env : Environment τ) (session : Session τ)

/-- The invocations that an enumeration makes. -/
def invocationsIn (query : Query) : Mode → List (Invocation τ)
  | .iteration => session.invocations env query
  | .stream => session.invocations env query ++ session.overrun env query

theorem effects_iteration (query : Query) :
    (Iteration.script (session.start env query).start).effects =
      (session.invocations env query).flatMap Invocation.effects := by
  have prepares := session.prepares_start env query
  rw [invocations]
  generalize (session.start env query).start = start, session.resultsOf env query = results at *
  cases prepares with
  | refused error => rfl
  | unanswered error => rfl
  | answered results => exact Iteration.effects_scriptOf _ 0 results

theorem effects_stream (query : Query) :
    (Stream.script (session.start env query).start).effects =
      (session.invocations env query ++ session.overrun env query).flatMap Invocation.effects := by
  have prepares := session.prepares_start env query
  rw [invocations, overrun]
  generalize (session.start env query).start = start, session.resultsOf env query = results at *
  cases prepares with
  | refused error => rfl
  | unanswered error => exact Stream.effects_scriptOf _ [.error error]
  | answered results =>
    simp only
    rw [← List.flatMap_append]
    exact Stream.effects_scriptOf _ results

theorem effects_script (mode : Mode) (query : Query) :
    (mode.script (session.start env query).start).effects =
      (session.invocationsIn env query mode).flatMap Invocation.effects := by
  cases mode with
  | iteration => exact session.effects_iteration env query
  | stream => exact session.effects_stream env query

/-- Where no item is an error, no invocation is made in vain. -/
theorem overrun_of_delivered {query : Query}
    (delivered : (session.reference env query).any isFailed = false) :
    session.overrun env query = [] := by
  unfold reference at delivered
  unfold overrun
  split
  · rfl
  next results outcome =>
    rw [outcome] at delivered
    exact congrArg (List.flatMap _) (Materializer.behindFailure_of_delivered _ delivered)

variable {session}

/-- Pulling an enumeration a number of times has the effects of as many pulls of its script. -/
theorem journal_run_pulls (mode : Mode) {id : Nat} {query : Query}
    (found : session.queries[id]? = some query) (pulls : Nat) :
    ((session.step env (mode.starting id)).session.run env
        (List.replicate pulls (.next session.pulls.length))).1.journal =
      session.journal.applyAll
        ((mode.script (session.start env query).start).effectsOf pulls) := by
  have follows := mode.follows_script (session.start env query).start
  have journal : (session.step env (mode.starting id)).session.journal = session.journal := by
    obtain ⟨entries, stepped⟩ := step_starting env mode found
    rw [stepped]
    exact session.journal_start env query
  rw [journal_run_of_pulls env (getElem?_pulls_starting env mode found) follows, journal]

/-- Pulling an enumeration to its end makes the same invocations as draining it at once. -/
theorem journal_run_starting (mode : Mode) {id : Nat} {query : Query}
    (found : session.queries[id]? = some query) {pulls : Nat}
    (enough : (session.reference env query).length < pulls) :
    ((session.step env (mode.starting id)).session.run env
        (List.replicate pulls (.next session.pulls.length))).1.journal =
      session.journal.applyAll
        ((session.invocationsIn env query mode).flatMap Invocation.effects) := by
  rw [← session.items_script env mode query] at enough
  rw [journal_run_pulls env mode found, Script.effectsOf_of_items_lt enough,
    session.effects_script env mode query]

theorem journal_draining (mode : Mode) {id : Nat} {query : Query}
    (found : session.queries[id]? = some query) :
    (session.step env (mode.draining id)).session.journal =
      session.journal.applyAll
        ((session.invocationsIn env query mode).flatMap Invocation.effects) := by
  obtain ⟨entries, stepped⟩ := step_draining env mode found
  rw [← session.effects_script env mode query, ← Script.effects_drained]
  exact congrArg (·.session.journal) stepped

theorem journal_toList {id : Nat} {query : Query} (found : session.queries[id]? = some query) :
    (session.step env (.toList id)).session.journal =
      session.journal.applyAll
        ((session.invocations env query).flatMap Invocation.effects) := by
  obtain ⟨entries, stepped⟩ := step_reading env found .list
  have stops := Iteration.stopsAtFailure_script (session.start env query).start
  have effects := stops.drained (Iteration.startState (session.start env query).start)
  rw [← Reading.refuses_list] at effects
  rw [← session.effects_iteration env query, ← Script.effects_drained, ← effects]
  exact congrArg (·.session.journal) stepped

/-- Enumerations invoke the processors, in their order and up to the first that fails, for each
result up to and with the first that gives no item; a selected document invokes none. A stream
then invokes them for one result more, if it failed before the last. As all processors here, these
are functions of the entity and keep no state of their own. -/
theorem journal_of_enumeration (env : Environment τ) (session : Session τ) {id : Nat}
    {query : Query} (found : session.queries[id]? = some query) :
    (session.step env (.toList id)).session.journal =
        session.journal.applyAll
          ((session.invocations env query).flatMap Invocation.effects) ∧
      (∀ mode : Mode,
        let journal := session.journal.applyAll
          ((session.invocationsIn env query mode).flatMap Invocation.effects)
        (session.step env (mode.draining id)).session.journal = journal ∧
          ∀ pulls, (session.reference env query).length < pulls →
            ((session.step env (mode.starting id)).session.run env
              (List.replicate pulls (.next session.pulls.length))).1.journal = journal) ∧
      ((session.reference env query).any isFailed = false →
        session.invocationsIn env query .stream = session.invocations env query) := by
  refine ⟨journal_toList env found, ?_, ?_⟩
  · intro mode journal
    exact ⟨journal_draining env mode found, fun _ => journal_run_starting env mode found⟩
  · intro delivered
    rw [invocationsIn, session.overrun_of_delivered env delivered, List.append_nil]

/-- A guard fails on marked documents; behind it all documents are tracked. The first of two
documents is marked. -/
def guardedSession : Session Json :=
  { store := { documents :=
      [.obj [("Id", .str "1"), ("Bad", .bool true)], .obj [("Id", .str "2")]] }
    chains := [{ processors :=
      [DocumentProcessor.toProcessor Catalog.doc (.failIf "guard" "Bad" (.bool true) "bad"),
        DocumentProcessor.toProcessor Catalog.doc .tracking] }]
    queries := [everything] }

theorem journal_of_enumeration_guarded :
    guardedSession.queries[0]? = some everything ∧
      (guardedSession.step plainDocuments (.toList 0)).session.journal.tracker.entries.length = 0 ∧
      (guardedSession.step plainDocuments (.streamAll 0)).session.journal.tracker.entries.length =
        1 := by
  have spec := journal_of_enumeration plainDocuments guardedSession
    (show guardedSession.queries[0]? = some everything from rfl)
  refine ⟨rfl, ?_, ?_⟩
  · rw [spec.1]
    rfl
  · rw [show Command.streamAll 0 = Mode.draining .stream 0 from rfl, (spec.2.1 .stream).1]
    rfl

theorem stream_tracks_behind_failure :
    let reply := guardedSession.step plainDocuments (.streamAll 0)
    reply.session.journal ≠ guardedSession.journal.applyAll
      ((guardedSession.invocations plainDocuments everything).flatMap Invocation.effects) := by
  intro reply same
  have tracked : 1 = 0 := congrArg (fun journal => journal.tracker.entries.length) same
  cases tracked

end Session
end DocQuery
