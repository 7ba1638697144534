import DocQuery.Proofs.Query.Enumerating

/-!
# Enumerations are isolated

What an enumeration gives is settled when it is started: by the operations, the mapping and the
configuration of its query, its processors, the documents and the failure that the store was
given. Two enumerations that are started alike give the same, whatever happens to either of them
afterwards (`enumeration_isolated`).
-/
namespace DocQuery

variable {τ : Type}

/-- A list that is filled up and then cut to fewer elements was filled up with enough. -/
theorem take_append_replicate {α : Type} {few many : Nat} (le : few ≤ many) (list : List α)
    (filling : α) :
    ((list ++ List.replicate many filling).take many).take few =
      (list ++ List.replicate few filling).take few := by
  rw [List.take_take, Nat.min_eq_left le, List.take_append, List.take_append, List.take_replicate,
    List.take_replicate]
  congr 2
  omega

namespace Session

/-- Two queries are started alike: they have the same operations, mapping and configuration, and
find the same documents, the same failure and the same processors. -/
structure StartsAlike (first second : Session τ) (query twin : Query) : Prop where
  operations : query.chain.operations = twin.chain.operations
  mapping : query.mapping = twin.mapping
  config : query.config = twin.config
  documents : first.store.documents = second.store.documents
  failure : first.store.failure = second.store.failure
  processors : (first.chainOf query).processors = (second.chainOf twin).processors

variable (env : Environment τ) {first second : Session τ} {query twin : Query}

namespace StartsAlike

variable (alike : StartsAlike first second query twin)

include alike

theorem build : env.build query = env.build twin := by
  rw [Environment.build, Environment.build, alike.operations, alike.mapping, alike.config]

theorem results (sorter : Sorter Json) (pipeline : Pipeline) :
    first.store.results sorter pipeline = second.store.results sorter pipeline := by
  rw [Store.results, Store.results, Store.evaluate, Store.evaluate, alike.documents, alike.failure]

theorem materializer : first.materializer env query = second.materializer env twin := by
  rw [Session.materializer, Session.materializer, Query.selects, Query.selects, alike.operations,
    alike.processors]

/-- Queries that are started alike stand for the same items. -/
theorem reference : first.reference env query = second.reference env twin := by
  rw [Session.reference, Session.reference, resultsOf, resultsOf, alike.build env,
    alike.materializer env]
  cases env.build twin with
  | error failure => rfl
  | ok compiled => simp only [alike.results]

end StartsAlike

/-- Enumerations that are started alike give the same to the same number of pulls, and the
beginning of it to fewer. What else happens between the pulls of either of them has no say. -/
theorem enumeration_isolated (env : Environment τ) (first second : Session τ)
    {id other : Nat} {query twin : Query} (found : first.queries[id]? = some query)
    (known : second.queries[other]? = some twin) (alike : StartsAlike first second query twin)
    (mode another : Mode) (commands others : List (Command τ)) :
    let started := first.step env (mode.starting id)
    let restarted := second.step env (another.starting other)
    let pull := first.pulls.length
    let double := second.pulls.length
    let answers := answersTo pull commands (started.session.run env commands).2
    let doubles := answersTo double others (restarted.session.run env others).2
    started.answer = .pull pull ∧ restarted.answer = .pull double ∧
      answers.length = pullsFrom pull commands ∧
      (pullsFrom pull commands ≤ pullsFrom double others →
        answers = doubles.take (pullsFrom pull commands)) := by
  intro started restarted pull double answers doubles
  have given : answers = _ := answersTo_run_starting env mode found commands
  have regiven : doubles = _ := answersTo_run_starting env another known others
  refine ⟨?_, ?_, ?_, ?_⟩
  · obtain ⟨entries, stepped⟩ := step_starting env mode found
    exact congrArg Reply.answer stepped
  · obtain ⟨entries, stepped⟩ := step_starting env another known
    exact congrArg Reply.answer stepped
  · rw [given, List.length_take, List.length_append, List.length_replicate]
    exact Nat.min_eq_left (Nat.le_add_left _ _)
  · intro fewer
    rw [given, regiven, alike.reference env, take_append_replicate fewer]

/-- An iteration is pulled while its store is mended, filled and enumerated again; a stream of
the same is just pulled. -/
theorem enumeration_isolated_broken :
    let quiet : Session Json := .ofStore brokenStore unmapped {}
    let commands : List (Command Json) :=
      [.insert (.obj []), .next 1, .setFailure none, .iterate 0, .next 2, .next 1]
    let others : List (Command Json) := [.next 0, .next 0, .next 0]
    let run := (brokenSession.step plainDocuments (.iterate 0)).session.run plainDocuments commands
    let calm := (quiet.step plainDocuments (.stream 0)).session.run plainDocuments others
    brokenSession.queries[0]? = some everything ∧ quiet.queries[0]? = some everything ∧
      StartsAlike brokenSession quiet everything everything ∧
      pullsFrom 1 commands ≤ pullsFrom 0 others ∧
      answersTo 1 commands run.2 = (answersTo 0 others calm.2).take 2 := by
  intro quiet commands others run calm
  have alike : StartsAlike brokenSession quiet everything everything := ⟨rfl, rfl, rfl, rfl, rfl, rfl⟩
  have fewer : pullsFrom 1 commands ≤ pullsFrom 0 others := by decide
  obtain ⟨-, -, -, same⟩ := enumeration_isolated plainDocuments brokenSession quiet
    (show brokenSession.queries[0]? = some everything from rfl)
    (show quiet.queries[0]? = some everything from rfl) alike .iteration .stream commands others
  exact ⟨rfl, rfl, alike, fewer, same fewer⟩

end Session
end DocQuery
