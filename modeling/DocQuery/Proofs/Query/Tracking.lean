import DocQuery.Proofs.Query.Invocations
import DocQuery.Proofs.Query.Snapshots

/-!
# Change tracking

A tracking processor at the end of the chain sees an entity only if no other processor has
failed, and sees it as it is handed out. With every pull from an iteration the tracker therefore
holds the documents of the entities given so far, the last one under each key, and what it held
before under all other keys (`tracker_of_iteration`).
-/
namespace DocQuery

variable {τ : Type}

open Processor (Invocation)

/-- The snapshots that effects take. -/
def snapshotsOf (effects : List Effect) : List TrackedEntry :=
  effects.filterMap Effect.snapshot?

theorem snapshotsOf_append (first second : List Effect) :
    snapshotsOf (first ++ second) = snapshotsOf first ++ snapshotsOf second :=
  List.filterMap_append

/-- The snapshot of an entity, if it has a key. -/
def EntityType.snapshot? (type : EntityType τ) (entity : τ) : Option TrackedEntry :=
  (type.key entity).map fun key => ⟨type.name, key, type.encode entity⟩

/-- The entity that an item is. -/
def yielded? : ItemResult τ → Option τ
  | .ok (.entity value) => some value
  | _ => none

/-- The entities among items. -/
def yieldedBy (items : List (ItemResult τ)) : List τ :=
  items.filterMap yielded?

/-! ## The tracking processor -/

/-- The processor that tracks the entities of a type. -/
def EntityType.tracking (type : EntityType τ) : Processor τ :=
  DocumentProcessor.tracking.toProcessor type

/-- A processor takes no snapshots. -/
def Processor.Untracked (processor : Processor τ) : Prop :=
  ∀ entity, snapshotsOf (processor.run entity).effects = []

theorem snapshotsOf_tracking (type : EntityType τ) (entity : τ) :
    snapshotsOf (type.tracking.run entity).effects = (type.snapshot? entity).toList := by
  rw [EntityType.snapshot?]
  simp only [EntityType.tracking, DocumentProcessor.toProcessor, DocumentProcessor.run]
  cases type.key entity <;> rfl

/-- The other processors that are described by data take no snapshots. -/
theorem DocumentProcessor.untracked {processor : DocumentProcessor} (other : processor ≠ .tracking)
    (type : EntityType τ) : (processor.toProcessor type).Untracked := by
  have assigned : ∀ entity name field value,
      snapshotsOf (DocumentProcessor.assigned type entity name field value).effects = [] := by
    intro entity name field value
    unfold DocumentProcessor.assigned
    split <;> rfl
  intro entity
  rw [toProcessor]
  cases processor with
  | tracking => exact (other rfl).elim
  | record name => rfl
  | failIf name field expected reason =>
    simp only [run]
    split <;> rfl
  | set name field value => exact assigned ..
  | add name field amount =>
    simp only [run]
    split
    · exact assigned ..
    · rfl
  | append name field text => exact assigned ..

theorem pass_tracking (type : EntityType τ) (entity : τ) :
    Processor.pass entity type.tracking = .ok entity := by
  simp only [Processor.pass, EntityType.tracking, DocumentProcessor.toProcessor,
    DocumentProcessor.run]
  cases type.key entity <;> rfl

section

variable {type : EntityType τ} {others : List (Processor τ)}
  (untracked : ∀ processor ∈ others, processor.Untracked)

include untracked

/-- Tracking behind other processors takes the snapshot of an entity that has passed them, as
it is then, and none of an entity that has not. -/
theorem snapshotsOf_invocations (entity : τ) :
    snapshotsOf ((Processor.invocations (others ++ [type.tracking]) entity).flatMap
        Invocation.effects) =
      match Processor.passAll (others ++ [type.tracking]) entity with
      | .ok passed => (type.snapshot? passed).toList
      | .error _ => [] := by
  induction others generalizing entity with
  | nil =>
    rw [List.nil_append, Processor.passAll, List.foldlM_cons, pass_tracking]
    simp only [Processor.invocations, pass_tracking, List.flatMap_singleton]
    exact snapshotsOf_tracking type entity
  | cons processor rest ih =>
    have quiet : snapshotsOf (Invocation.effects ⟨processor, entity⟩) = [] :=
      untracked processor List.mem_cons_self entity
    have later := ih fun other listed => untracked other (List.mem_cons_of_mem _ listed)
    rw [List.cons_append, Processor.passAll, List.foldlM_cons, Processor.invocations,
      List.flatMap_cons, snapshotsOf_append, quiet, List.nil_append]
    cases Processor.pass entity processor with
    | error failure => rfl
    | ok next => exact later next

/-- Making an item takes the snapshot of the entity that it is. -/
theorem snapshotsOf_invocationsOf {m : Materializer τ}
    (chain : m.processors = others ++ [type.tracking]) (result : Except ExecutionError Json) :
    snapshotsOf ((m.invocationsOf result).flatMap Invocation.effects) =
      ((yielded? (m.itemOf result)).bind type.snapshot?).toList := by
  cases result with
  | error error => rfl
  | ok document =>
    rw [Materializer.invocationsOf, Materializer.itemOf]
    cases m.yieldsEntities with
    | false => rfl
    | true =>
      rw [if_pos rfl, if_pos rfl]
      cases decoded : m.type.decode document with
      | error reason =>
        rw [Materializer.entityIn, decoded]
        rfl
      | ok entity =>
        simp only
        rw [m.entityIn_of_decoded decoded, chain, snapshotsOf_invocations untracked]
        cases Processor.passAll (others ++ [type.tracking]) entity <;> rfl

end

/-! ## Scripts that track what they give -/

namespace Script

/-- Every pull takes the snapshot of the entity that it gives, and no other. -/
def Tracks (type : EntityType τ) : Script (ItemResult τ) → Prop
  | .ends work => snapshotsOf work.effects = []
  | .yields work item rest =>
    snapshotsOf work.effects = ((yielded? item).bind type.snapshot?).toList ∧ rest.Tracks type

variable {type : EntityType τ} {script : Script (ItemResult τ)}

/-- A number of pulls take the snapshots of the entities that they give. -/
theorem Tracks.effectsOf (tracks : script.Tracks type) (pulls : Nat) :
    snapshotsOf (script.effectsOf pulls) =
      (yieldedBy (script.items.take pulls)).filterMap type.snapshot? := by
  induction pulls generalizing script with
  | zero => simp [Script.effectsOf, snapshotsOf, yieldedBy]
  | succ pulls ih =>
    rw [Script.effectsOf, snapshotsOf_append]
    cases script with
    | ends work =>
      have nothing : snapshotsOf (Script.ends work : Script (ItemResult τ)).work.effects = [] :=
        tracks
      rw [nothing, Script.rest, effectsOf_idle]
      rfl
    | yields work item rest =>
      obtain ⟨here, later⟩ := tracks
      have head : snapshotsOf (Script.yields work item rest).work.effects = _ := here
      rw [head, Script.rest, ih later, items, List.take_succ_cons, yieldedBy, yieldedBy]
      cases yielded : yielded? item with
      | none => simp [yielded]
      | some entity => cases taken : type.snapshot? entity <;> simp [yielded, taken]

theorem Tracks.effects (tracks : script.Tracks type) :
    snapshotsOf script.effects = (yieldedBy script.items).filterMap type.snapshot? := by
  have all := tracks.effectsOf (script.items.length + 1)
  rw [effectsOf_of_items_lt (Nat.lt_succ_self _), List.take_of_length_le (Nat.le_succ _)] at all
  exact all

end Script

/-- An iteration tracks what it gives if the last processor of its query is the tracking one and
no other takes snapshots. -/
theorem Iteration.tracks_script {type : EntityType τ} {others : List (Processor τ)}
    (untracked : ∀ processor ∈ others, processor.Untracked) {m : Materializer τ}
    (chain : m.processors = others ++ [type.tracking]) {start : Start τ}
    {results : Except QueryError ResultStream} (prepares : Prepares m start results) :
    (Iteration.script start).Tracks type := by
  have tracks : ∀ results yielded, (Iteration.scriptOf m yielded results).Tracks type := by
    intro results
    induction results with
    | nil => exact fun _ => rfl
    | cons result rest ih =>
      intro yielded
      rw [Iteration.scriptOf_cons]
      refine ⟨?_, ?_⟩
      · rw [m.effects_work_report, m.item_make, snapshotsOf_invocationsOf untracked chain]
      · split
        · rfl
        · exact ih _
  cases prepares with
  | refused error => exact ⟨rfl, rfl⟩
  | unanswered error => exact ⟨rfl, rfl⟩
  | answered results => exact tracks results 0

/-! ## What a tracker holds -/

namespace Tracker

/-- A tracker holds the documents of entities that were yielded after another tracker, the last
one under each key, and under all other keys what the other held. -/
structure Reflects (after : Tracker) (type : EntityType τ) (before : Tracker)
    (yielded : List τ) : Prop where
  latest : ∀ earlier entity later key, yielded = earlier ++ entity :: later →
    type.key entity = some key → (∀ other ∈ later, type.key other ≠ some key) →
      after.get? type.name key = some ⟨type.name, key, type.encode entity⟩
  kept : ∀ name key, (name = type.name → ∀ entity ∈ yielded, type.key entity ≠ some key) →
    after.get? name key = before.get? name key
  ordered : after.Ordered
  listed : ∀ entry, entry ∈ after.entries ↔
    after.get? entry.entityType entry.key = some entry

theorem isOf_of_snapshot? {type : EntityType τ} {entity : τ} {entry : TrackedEntry}
    (taken : type.snapshot? entity = some entry) {name key : String} (own : entry.IsOf name key) :
    name = type.name ∧ type.key entity = some key := by
  obtain ⟨other, keyed, rfl⟩ := Option.map_eq_some_iff.mp taken
  obtain ⟨rfl, rfl⟩ := own
  exact ⟨rfl, keyed⟩

/-- Tracking the snapshots of entities makes a tracker reflect them. -/
theorem reflects_trackAll {before : Tracker} (ordered : before.Ordered) (type : EntityType τ)
    (yielded : List τ) :
    ((yielded.filterMap type.snapshot?).foldl track before).Reflects type before yielded where
  latest := by
    rintro earlier entity later key rfl keyed last
    have taken : type.snapshot? entity = some ⟨type.name, key, type.encode entity⟩ := by
      rw [EntityType.snapshot?, keyed]
      rfl
    rw [List.filterMap_append, List.filterMap_cons_some taken]
    refine get?_trackAll_of_last (fun entry listed own => ?_) before
    obtain ⟨other, among, snapshot⟩ := List.mem_filterMap.mp listed
    exact last other among (isOf_of_snapshot? snapshot own).2
  kept := by
    intro name key untouched
    refine get?_trackAll_of_none (fun entry listed own => ?_) before
    obtain ⟨entity, among, snapshot⟩ := List.mem_filterMap.mp listed
    obtain ⟨same, keyed⟩ := isOf_of_snapshot? snapshot own
    exact untouched same entity among keyed
  ordered := ordered.trackAll _
  listed := (ordered.trackAll _).mem_iff

end Tracker

/-- Effects that take the snapshots of entities make the tracker of a journal reflect them. -/
theorem Journal.reflects_applyAll {journal : Journal} (ordered : journal.tracker.Ordered)
    {type : EntityType τ} {effects : List Effect} {yielded : List τ}
    (taken : snapshotsOf effects = yielded.filterMap type.snapshot?) :
    (journal.applyAll effects).tracker.Reflects type journal.tracker yielded := by
  rw [tracker_applyAll, ← snapshotsOf, taken]
  exact Tracker.reflects_trackAll ordered type yielded

namespace Session

variable (env : Environment τ) {session : Session τ}

/-- Trackers are in order in every session over a store. -/
theorem ordered_run (ordered : session.journal.tracker.Ordered) (commands : List (Command τ)) :
    (session.run env commands).1.journal.tracker.Ordered := by
  induction commands generalizing session with
  | nil => exact ordered
  | cons command commands ih =>
    refine ih ?_
    rcases session.journal_step env command with ⟨effects, after⟩ | after
    · rw [after, Journal.tracker_applyAll]
      exact ordered.trackAll _
    · rw [after]
      exact Tracker.ordered_empty

theorem items_of_answers (items : List (ItemResult τ)) (pulls : Nat) :
    ((items.map some ++ List.replicate pulls none).take pulls).filterMap (·) =
      items.take pulls := by
  have delivered : List.filterMap ((·) ∘ some) (items.take pulls) = items.take pulls :=
    List.filterMap_some
  rw [List.take_append, ← List.map_take, List.filterMap_append, List.filterMap_map,
    List.take_replicate, delivered]
  simp

theorem pullsFrom_replicate (id pulls : Nat) :
    pullsFrom id (List.replicate pulls (.next id : Command τ)) = pulls := by
  rw [pullsFrom, List.countP_replicate]
  exact if_pos (decide_eq_true rfl)

/-- With each pull from an iteration, and when it is drained at once or into a list, the tracker
behind the other processors comes to hold the documents of the entities that were yielded, and
keeps all else that it held. An entity is unchanged if its document equals the one held under
its key. The trackers of all sessions over a store are in order. The other processors are functions
of the entity and keep no state of their own. -/
theorem tracker_of_iteration (env : Environment τ) (session : Session τ) {id : Nat}
    {query : Query} (found : session.queries[id]? = some query) {others : List (Processor τ)}
    (chain : (session.chainOf query).processors = others ++ [env.type.tracking])
    (untracked : ∀ processor ∈ others, processor.Untracked)
    (ordered : session.journal.tracker.Ordered) :
    let items := session.reference env query
    let before := session.journal.tracker
    let drained := session.step env (.iterateAll id)
    let listed := session.step env (.toList id)
    let started := session.step env (.iterate id)
    (drained.answer = .items items ∧
      drained.session.journal.tracker.Reflects env.type before (yieldedBy items)) ∧
    (listed.answer = Reading.list.answer env.type items ∧
      listed.session.journal.tracker.Reflects env.type before (yieldedBy items)) ∧
    (∀ pulls,
      let commands := List.replicate pulls (.next session.pulls.length)
      let run := started.session.run env commands
      let answers := answersTo session.pulls.length commands run.2
      answers = (items.map some ++ List.replicate pulls none).take pulls ∧
        run.1.journal.tracker.Reflects env.type before (yieldedBy (answers.filterMap (·)))) ∧
    (∀ (tracker : Tracker) entity,
      (tracker.stateOf env.type entity = none ↔ env.type.key entity = none ∨
        ∃ key, env.type.key entity = some key ∧ tracker.get? env.type.name key = none) ∧
      ∀ state, tracker.stateOf env.type entity = some state ↔
        ∃ key entry, env.type.key entity = some key ∧
          tracker.get? env.type.name key = some entry ∧
          state = if (env.type.encode entity).equal entry.snapshot then .unchanged
            else .modified) ∧
    ∀ store mapping config (commands : List (Command τ)),
      ((Session.ofStore store mapping config).run env commands).1.journal.tracker.Ordered := by
  intro items before drained listed started
  have tracks := Iteration.tracks_script untracked chain (session.prepares_start env query)
  have given : (Iteration.script (session.start env query).start).items = items :=
    session.items_iteration env query
  have effects := session.effects_iteration env query
  have all : ((session.journal.applyAll
      ((session.invocations env query).flatMap Invocation.effects)).tracker).Reflects env.type
        before (yieldedBy items) := by
    rw [← effects]
    exact Journal.reflects_applyAll ordered (tracks.effects.trans (by rw [given]))
  refine ⟨⟨?_, ?_⟩, ⟨?_, ?_⟩, ?_, ?_, ?_⟩
  · obtain ⟨entries, stepped⟩ := step_draining env .iteration found
    exact congrArg Reply.answer stepped
  · rw [show drained.session.journal = _ from journal_draining env .iteration found]
    exact all
  · obtain ⟨entries, stepped⟩ := step_reading env found .list
    exact congrArg Reply.answer stepped
  · rw [show listed.session.journal = _ from journal_toList env found]
    exact all
  · intro pulls commands run answers
    have answered : answers = (items.map some ++ List.replicate pulls none).take pulls := by
      rw [← pullsFrom_replicate session.pulls.length pulls]
      exact answersTo_run_starting env .iteration found commands
    refine ⟨answered, ?_⟩
    rw [answered, items_of_answers, ← given,
      show run.1.journal = _ from journal_run_pulls env .iteration found pulls]
    exact Journal.reflects_applyAll ordered (tracks.effectsOf pulls)
  · exact fun tracker entity =>
      ⟨tracker.stateOf_eq_none_iff env.type entity, tracker.stateOf_eq_some_iff env.type entity⟩
  · exact fun store mapping config commands => ordered_run env Tracker.ordered_empty commands

/-- What runs before the tracking processor in a stamped session: marked documents are refused
and all others are stamped. -/
def stamps : List DocumentProcessor :=
  [.failIf "guard" "Bad" (.bool true) "bad", .set "stamp" "Seen" (.bool true)]

/-- Two of five documents share a key that is tracked already, one has no key, and the fourth is
marked. -/
def stampedSession : Session Json :=
  { store := { documents :=
      [.obj [("Id", .str "1"), ("N", .num (.int 1))], .obj [("N", .num (.int 2))],
        .obj [("Id", .str "1"), ("N", .num (.int 3))], .obj [("Id", .str "2"), ("Bad", .bool true)],
        .obj [("Id", .str "3")]] }
    chains :=
      [⟨stamps.map (DocumentProcessor.toProcessor Catalog.doc) ++ [Catalog.doc.tracking], false⟩]
    journal := { tracker := ⟨[⟨"Doc", "0", .null⟩, ⟨"Doc", "1", .null⟩]⟩ }
    queries := [everything] }

theorem tracker_of_iteration_stamped :
    let tracker := (stampedSession.step plainDocuments (.toList 0)).session.journal.tracker
    stampedSession.queries[0]? = some everything ∧
      (∀ processor ∈ stamps.map (DocumentProcessor.toProcessor Catalog.doc),
        processor.Untracked) ∧
      stampedSession.journal.tracker.Ordered ∧
      tracker.get? "Doc" "1" = some ⟨"Doc", "1",
        .obj [("Id", .str "1"), ("N", .num (.int 3)), ("Seen", .bool true)]⟩ ∧
      tracker.get? "Doc" "0" = some ⟨"Doc", "0", .null⟩ ∧
      tracker.get? "Doc" "2" = none ∧ tracker.get? "Doc" "3" = none := by
  intro tracker
  have untracked : ∀ processor ∈ stamps.map (DocumentProcessor.toProcessor Catalog.doc),
      processor.Untracked := by
    intro processor listed
    obtain ⟨stamp, among, rfl⟩ := List.mem_map.mp listed
    refine DocumentProcessor.untracked ?_ Catalog.doc
    rintro rfl
    simp [stamps] at among
  have ordered : stampedSession.journal.tracker.Ordered := by
    simp only [Tracker.Ordered, stampedSession]
    decide
  obtain ⟨-, ⟨-, reflects⟩, -⟩ := tracker_of_iteration plainDocuments stampedSession
    (show stampedSession.queries[0]? = some everything from rfl) rfl untracked ordered
  let first : Json := .obj [("Id", .str "1"), ("N", .num (.int 1)), ("Seen", .bool true)]
  let second : Json := .obj [("N", .num (.int 2)), ("Seen", .bool true)]
  let third : Json := .obj [("Id", .str "1"), ("N", .num (.int 3)), ("Seen", .bool true)]
  have yielded : yieldedBy (stampedSession.reference plainDocuments everything) =
      [first, second, third] := rfl
  rw [yielded] at reflects
  have untouched : ∀ key, key ≠ "1" → ∀ entity ∈ [first, second, third],
      plainDocuments.type.key entity ≠ some key := by
    intro key other entity listed keyed
    simp only [List.mem_cons, List.not_mem_nil, or_false] at listed
    rcases listed with rfl | rfl | rfl
    · exact other (Option.some.inj keyed).symm
    · cases keyed
    · exact other (Option.some.inj keyed).symm
  refine ⟨rfl, untracked, ordered, ?_, ?_, ?_, ?_⟩
  · exact reflects.latest [first, second] third [] "1" rfl rfl nofun
  · exact reflects.kept "Doc" "0" fun _ => untouched "0" (by decide)
  · exact reflects.kept "Doc" "2" fun _ => untouched "2" (by decide)
  · exact reflects.kept "Doc" "3" fun _ => untouched "3" (by decide)

end Session
end DocQuery
