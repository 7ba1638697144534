import DocQuery.Log.Logger
import DocQuery.Proofs.Query.Collecting

/-!
# What enumerations log

An enumeration logs that its query was compiled and handed to the store, then the failure it
meets, if that is one of the store or of a processor. An iteration that meets none logs at its
end how many items it gave. A stream never does, and logs one line more behind a failure if the
result that it then makes in vain fails too (`completion_of_enumeration`).
-/
namespace DocQuery

variable {τ : Type}

open Processor (Invocation)

namespace Log

namespace Entry

/-- The entry for an enumeration that was drained without an error. -/
def ofCompletion (entityType : String) (yielded : Nat) : Entry :=
  .ofEvent .enumerationComplete [("entity", entityType), ("yielded", toString yielded)]

def isCompletion (entry : Entry) : Bool :=
  entry.event = Event.enumerationComplete.name

/-- The entry is one with which an enumeration should end. -/
def closes (entry : Entry) : Bool :=
  [Event.enumerationComplete, .executionFailed, .processorFailed].any (·.name = entry.event)

end Entry

/-- No entry follows one that closes. -/
def ClosesLast (entries : List Entry) : Prop :=
  ∀ entry ∈ entries.dropLast, entry.closes = false

theorem ClosesLast.of_begins {entries first : List Entry} (closes : ClosesLast entries)
    (begins : first <+: entries) : ClosesLast first := by
  obtain ⟨rest, rfl⟩ := begins
  intro entry listed
  apply closes
  cases rest with
  | nil => rwa [List.append_nil]
  | cons next rest =>
    rw [List.dropLast_append_of_ne_nil (List.cons_ne_nil next rest)]
    exact List.mem_append_left _ ((List.dropLast_sublist first).mem listed)

theorem closesLast_append {opening closing : List Entry}
    (opens : ∀ entry ∈ opening, entry.closes = false)
    (closes : ∀ entry ∈ closing, entry.closes = true) :
    ClosesLast (opening ++ closing) ↔ closing.length ≤ 1 := by
  match closing with
  | [] =>
    rw [List.append_nil]
    exact ⟨fun _ => Nat.zero_le 1,
      fun _ entry listed => opens entry ((List.dropLast_sublist opening).mem listed)⟩
  | [last] =>
    rw [ClosesLast, List.dropLast_concat]
    exact ⟨fun _ => Nat.le_refl 1, fun _ => opens⟩
  | first :: second :: rest =>
    refine ⟨fun last => ?_, fun short => ?_⟩
    · have listed : first ∈ (opening ++ first :: second :: rest).dropLast := by
        rw [List.dropLast_append_of_ne_nil (List.cons_ne_nil first _)]
        exact List.mem_append_right _ List.mem_cons_self
      cases (last first listed).symm.trans (closes first List.mem_cons_self)
    · exact absurd short (by simp)

/-- At the lowest threshold everything is written. -/
theorem Logger.written_trace (entries : List Entry) :
    Logger.written ⟨.trace⟩ entries = entries :=
  List.filter_eq_self.mpr fun entry _ => decide_eq_true (Nat.zero_le entry.severity.rank)

end Log

/-! ## The failures among items -/

/-- What is to be logged of an item: the error in its place if that is one of the store, or of one
of the processors, under the name that this is registered with. -/
inductive Logs (processors : List (Processor τ)) : ItemResult τ → List Log.Entry → Prop
  | delivered (item : Item τ) : Logs processors (.ok item) []
  | execution (error : ExecutionError) : Logs processors (.error (.execution error)) [error.entry]
  | processor (failed : Processor τ) (listed : failed ∈ processors) (failure : ProcessorFailure) :
    Logs processors (.error (.processor failure)) [failed.failed failure]
  | compile (error : CompileError) : Logs processors (.error (.compile error)) []
  | materialization (entityType reason : String) :
    Logs processors (.error (.materialization entityType reason)) []

namespace Logs

variable {processors : List (Processor τ)} {item : ItemResult τ} {entries : List Log.Entry}

theorem closes (logs : Logs processors item entries) {entry : Log.Entry}
    (listed : entry ∈ entries) : entry.closes = true ∧ entry.isCompletion = false := by
  cases logs with
  | execution | processor =>
    cases List.mem_singleton.mp listed
    exact ⟨rfl, rfl⟩
  | _ => cases listed

theorem length_le (logs : Logs processors item entries) : entries.length ≤ 1 := by
  cases logs <;> simp

theorem eq_nil (logs : Logs processors item entries) (delivered : isFailed item = false) :
    entries = [] := by
  cases logs with
  | delivered => rfl
  | _ => cases delivered

end Logs

/-- Of the invocations for an entity one is logged, if one fails, and then it is the last. -/
theorem Processor.entries_invocations (processors : List (Processor τ)) (entity : τ) :
    let entries := (invocations processors entity).flatMap Invocation.entries
    match passAll processors entity with
    | .ok _ => entries = []
    | .error failure => ∃ processor ∈ processors, entries = [processor.failed failure] := by
  induction processors generalizing entity with
  | nil => rfl
  | cons processor rest ih =>
    simp only [invocations, passAll, List.foldlM_cons, List.flatMap_cons, Invocation.entries, pass]
    cases (processor.run entity).failure with
    | some failure => exact ⟨processor, List.mem_cons_self, rfl⟩
    | none =>
      have later := ih (processor.run entity).entity
      simp only [passAll] at later
      change match List.foldlM pass (processor.run entity).entity rest with
        | .ok _ => _
        | .error failure => _
      cases passed : List.foldlM pass (processor.run entity).entity rest with
      | ok last =>
        rw [passed] at later
        exact later
      | error failure =>
        rw [passed] at later
        obtain ⟨failed, listed, logged⟩ := later
        exact ⟨failed, List.mem_cons_of_mem _ listed, logged⟩

/-- The entry at the end of an iteration, behind some items. -/
def completionEntry (entityType : String) (yielded : Nat) (items : List (ItemResult τ)) :
    List Log.Entry :=
  if items.any isFailed then [] else [.ofCompletion entityType (yielded + items.length)]

namespace Materializer

variable (m : Materializer τ)

/-- What is logged when the item of a result is made. -/
def entriesOf : Except ExecutionError Json → List Log.Entry
  | .error error => [error.entry]
  | .ok document => (m.invocationsOf (.ok document)).flatMap Invocation.entries

theorem logs_entriesOf (result : Except ExecutionError Json) :
    Logs m.processors (m.itemOf result) (m.entriesOf result) := by
  cases result with
  | error error => exact .execution error
  | ok document =>
    rw [itemOf, entriesOf, invocationsOf]
    split
    · cases decoded : m.type.decode document with
      | error reason =>
        rw [entityIn, decoded]
        exact .materialization _ reason
      | ok entity =>
        have logged := Processor.entries_invocations m.processors entity
        rw [m.entityIn_of_decoded decoded]
        simp only at logged ⊢
        cases passed : Processor.passAll m.processors entity with
        | ok last =>
          simp only [passed] at logged
          rw [logged]
          exact .delivered _
        | error failure =>
          simp only [passed] at logged
          obtain ⟨processor, listed, same⟩ := logged
          rw [same]
          exact .processor processor listed failure
    · exact .delivered _

theorem entries_make (result : Except ExecutionError Json) :
    (m.make result).entries = m.entriesOf result := by
  cases result with
  | error error => rfl
  | ok document =>
    rw [make, materialize, entriesOf, invocationsOf]
    split
    · cases m.type.decode document with
      | error reason => rfl
      | ok entity => exact Processor.entries_runAll m.processors entity
    · rfl

theorem entries_work_report (result : Except ExecutionError Json) :
    (m.work result ++ report (m.make result).item).entries = m.entriesOf result := by
  rw [← m.entries_make]
  cases (m.make result).item with
  | error error => rw [m.work_report_error]; rfl
  | ok item => rw [m.work_report_ok]; rfl

/-- Of the results up to the first that gives no item, what is logged is the error of that one. -/
theorem logs_delivered {results : ResultStream} {error : QueryError}
    (listed : .error error ∈ cutAfter isFailed (results.map m.itemOf)) :
    Logs m.processors (.error error) ((m.delivered results).flatMap m.entriesOf) := by
  induction results with
  | nil => cases listed
  | cons result rest ih =>
    have here := m.logs_entriesOf result
    rw [List.map_cons, cutAfter] at listed
    rw [delivered_cons, List.flatMap_cons]
    cases made : m.itemOf result with
    | error cause =>
      rw [made, isFailed, if_pos rfl] at listed
      rw [made] at here
      cases List.mem_singleton.mp listed
      rw [isFailed, if_pos rfl, List.flatMap_nil, List.append_nil]
      exact here
    | ok item =>
      rw [made, isFailed, if_neg Bool.false_ne_true] at listed
      rw [made] at here
      rw [here.eq_nil rfl, isFailed, if_neg Bool.false_ne_true]
      rcases List.mem_cons.mp listed with first | later
      · cases first
      · exact ih later

/-- Where no item is an error, no failure is logged. -/
theorem entries_of_delivered {results : ResultStream}
    (delivered : (cutAfter isFailed (results.map m.itemOf)).any isFailed = false) :
    (m.delivered results).flatMap m.entriesOf = [] := by
  rw [any_cutAfter, List.any_map, List.any_eq_false] at delivered
  rw [List.flatMap_eq_nil_iff]
  intro result listed
  have fine := delivered result (mem_of_mem_cutAfter listed)
  exact (m.logs_entriesOf result).eq_nil (Bool.eq_false_iff.mpr fine)

end Materializer

theorem Iteration.entries_scriptOf (m : Materializer τ) (yielded : Nat) (results : ResultStream) :
    (Iteration.scriptOf m yielded results).entries =
      (m.delivered results).flatMap m.entriesOf ++
        completionEntry m.type.name yielded (cutAfter isFailed (results.map m.itemOf)) := by
  induction results generalizing yielded with
  | nil => rfl
  | cons result rest ih =>
    rw [scriptOf_cons, Script.entries, m.entries_work_report, m.item_make, m.delivered_cons]
    simp only [List.map_cons, cutAfter, List.flatMap_cons]
    cases m.itemOf result with
    | error error => simp [isFailed, completionEntry, Script.entries, Work.idle]
    | ok item =>
      simp only [isFailed, Bool.false_eq_true, if_false, ih, List.append_assoc, completionEntry,
        List.any_cons, Bool.false_or, List.length_cons]
      rw [Nat.add_right_comm, Nat.add_assoc]

theorem Stream.entries_scriptOf (m : Materializer τ) (results : ResultStream) :
    (Stream.scriptOf m results).entries =
      (m.delivered results ++ m.behindFailure results).flatMap m.entriesOf := by
  induction results with
  | nil => rw [scriptOf_nil]; rfl
  | cons result rest ih =>
    rw [scriptOf_cons, Script.entries, m.entries_work_report, Materializer.behindFailure,
      m.delivered_cons, m.item_make]
    cases isFailed (m.itemOf result) with
    | false =>
      simp only [Bool.false_eq_true, if_false, List.length_cons, List.drop_succ_cons,
        List.cons_append, List.flatMap_cons]
      rw [ih]
      rfl
    | true =>
      cases rest with
      | nil => simp [Script.entries, wasted, Work.idle, entries_settling]
      | cons next others =>
        simp [Script.entries, wasted, entries_settling, Materializer.work, m.entries_make]

/-- The entries for a start of an enumeration, behind those for the query. -/
def Mode.startEntries : Mode → Start τ → List Log.Entry
  | .iteration, start => DocQuery.startEntries start
  | .stream, _ => []

/-- The entries of the pulls from one enumeration, out of the entries of all commands. -/
def entriesTo (id : Nat) : List (Command τ) → List (Answer τ × List Log.Entry) → List Log.Entry
  | command :: commands, reply :: replies =>
    (if command.pulls = some id then reply.2 else []) ++ entriesTo id commands replies
  | _, _ => []

namespace Session

variable (env : Environment τ) (session : Session τ)

/-- The entries for a query that is to be enumerated. -/
def openingEntries (query : Query) : List Log.Entry :=
  env.buildEntry query ::
    match env.build query with
    | .error _ => []
    | .ok compiled => [.ofExecution env.type.name compiled]

/-- The entries for the failure that an enumeration meets, if it meets one. -/
def failureEntries (query : Query) : List Log.Entry :=
  match session.resultsOf env query with
  | .error (.execution error) => [error.entry]
  | .error _ => []
  | .ok results =>
    let m := session.materializer env query
    (m.delivered results).flatMap m.entriesOf

/-- The entries for the item that a stream makes behind the first failure, if it makes one. -/
def wastedEntries (query : Query) : List Log.Entry :=
  match session.resultsOf env query with
  | .error _ => []
  | .ok results =>
    let m := session.materializer env query
    (m.behindFailure results).flatMap m.entriesOf

/-- The entries with which an enumeration of a query should end and ends. -/
def closingEntries (query : Query) : Mode → List Log.Entry
  | .iteration =>
    session.failureEntries env query ++
      completionEntry env.type.name 0 (session.reference env query)
  | .stream => session.failureEntries env query ++ session.wastedEntries env query

/-- All entries of an enumeration of a query. -/
def entriesIn (query : Query) (mode : Mode) : List Log.Entry :=
  openingEntries env query ++ session.closingEntries env query mode

theorem entries_start (query : Query) :
    (session.start env query).entries = openingEntries env query := by
  unfold start openingEntries
  cases env.build query <;> rfl

/-- A start is refused only if the query does not compile. -/
theorem compile_of_start_error {query : Query} {error : QueryError}
    (refused : (session.start env query).start = .error error) :
    ∃ cause, error = .compile cause := by
  unfold start at refused
  cases built : env.build query with
  | error failure =>
    simp only [built] at refused
    cases refused
    exact ⟨failure.error, rfl⟩
  | ok compiled =>
    simp only [built] at refused
    cases refused

theorem entries_script (mode : Mode) (query : Query) :
    let start := (session.start env query).start
    mode.startEntries start ++ (mode.script start).entries =
      session.closingEntries env query mode := by
  have prepares := session.prepares_start env query
  have compiles : ∀ error, (session.start env query).start = .error error →
      ∃ cause, error = .compile cause := fun _ => session.compile_of_start_error env
  unfold closingEntries reference failureEntries wastedEntries
  generalize (session.start env query).start = start, session.resultsOf env query = results at *
  cases mode with
  | iteration =>
    cases prepares with
    | refused error =>
      obtain ⟨cause, rfl⟩ := compiles error rfl
      rfl
    | unanswered error => rfl
    | answered results => exact Iteration.entries_scriptOf _ 0 results
  | stream =>
    cases prepares with
    | refused error =>
      obtain ⟨cause, rfl⟩ := compiles error rfl
      rfl
    | unanswered error => exact Stream.entries_scriptOf _ [.error error]
    | answered results =>
      simp only
      rw [← List.flatMap_append]
      exact Stream.entries_scriptOf _ results

/-! ## The entries of an enumeration in a run -/

variable {session}

/-- The entries of the pulls from an enumeration are those of its script. -/
theorem entriesTo_run {id : Nat} {pull : Pull τ} {script : Script (ItemResult τ)}
    (found : session.pulls[id]? = some pull) (follows : pull.enumeration.Follows script)
    (commands : List (Command τ)) :
    entriesTo id commands (session.run env commands).2 =
      script.entriesOf (pullsFrom id commands) := by
  induction commands generalizing session pull script with
  | nil => rfl
  | cons command commands ih =>
    -- Only a pull from the enumeration itself moves it on in its script.
    by_cases pulls : command.pulls = some id
    · cases Command.eq_next pulls
      obtain ⟨-, worked, behind⟩ := follows.step
      have here : (session.step env (.next id)).entries = script.work.entries := by
        rw [step_next env found, ← worked]
        rfl
      have tail := ih (getElem?_pulls_next env found) behind
      have counted : pullsFrom id (.next id :: commands) = pullsFrom id commands + 1 :=
        List.countP_cons_of_pos (decide_eq_true pulls)
      rw [run, entriesTo, if_pos pulls, counted, Script.entriesOf, ← here, ← tail]
    · have tail := ih (getElem?_pulls_step env found pulls) follows
      have uncounted : pullsFrom id (command :: commands) = pullsFrom id commands :=
        List.countP_cons_of_neg (by simpa using pulls)
      rw [run, entriesTo, if_neg pulls, List.nil_append, uncounted, tail]

section

variable {id : Nat} {query : Query} (found : session.queries[id]? = some query)

include found

theorem entries_starting (mode : Mode) :
    (session.step env (mode.starting id)).entries =
      openingEntries env query ++ mode.startEntries (session.start env query).start := by
  rw [← session.entries_start]
  cases mode with
  | iteration =>
    rw [Mode.starting, step, withQuery, found]
    rfl
  | stream =>
    rw [Mode.starting, step, withQuery, found]
    exact (List.append_nil _).symm

/-- Any pulls log a beginning of what the enumeration logs, and enough pulls all of it. -/
theorem entries_run_starting (mode : Mode) (commands : List (Command τ)) :
    let started := session.step env (mode.starting id)
    let entries := started.entries ++
      entriesTo session.pulls.length commands (started.session.run env commands).2
    entries <+: session.entriesIn env query mode ∧
      ((session.reference env query).length < pullsFrom session.pulls.length commands →
        entries = session.entriesIn env query mode) := by
  intro started entries
  have follows := mode.follows_script (session.start env query).start
  have pulled := entriesTo_run env (getElem?_pulls_starting env mode found) follows commands
  have logged : entries = openingEntries env query ++
      (mode.startEntries (session.start env query).start ++ (mode.script
        (session.start env query).start).entriesOf (pullsFrom session.pulls.length commands)) := by
    rw [← pulled, ← List.append_assoc, ← entries_starting env found mode]
  rw [logged, entriesIn, ← session.entries_script env mode query]
  refine ⟨?_, fun enough => ?_⟩
  · rw [List.prefix_append_right_inj, List.prefix_append_right_inj]
    exact Script.entriesOf_prefix _ _
  · rw [← session.items_script env mode query] at enough
    rw [Script.entriesOf_of_items_lt enough]

theorem entries_draining (mode : Mode) :
    (session.step env (mode.draining id)).entries = session.entriesIn env query mode := by
  have logged : (session.step env (mode.draining id)).entries =
      (openingEntries env query ++ mode.startEntries (session.start env query).start) ++
        (mode.script (session.start env query).start).entries := by
    rw [← session.entries_start,
      ← Script.entries_drained (mode.startState (session.start env query).start)]
    cases mode with
    | iteration =>
      rw [Mode.draining, step, withQuery, found]
      exact congrArg Reply.entries (drain_started env .iteration found (fun _ => false) _ .items)
    | stream =>
      rw [Mode.draining, step, withQuery, found, Mode.startEntries, List.append_nil]
      exact congrArg Reply.entries (drain_started env .stream found (fun _ => false) _ .items)
  rw [logged, List.append_assoc, session.entries_script env mode query, entriesIn]

theorem entries_toList :
    (session.step env (.toList id)).entries = session.entriesIn env query .iteration := by
  have stops := Iteration.stopsAtFailure_script (session.start env query).start
  have drained := stops.drained (Iteration.startState (session.start env query).start)
  rw [← Reading.refuses_list, ← Reading.toBool_item] at drained
  have logged : (session.step env (.toList id)).entries =
      (openingEntries env query ++ startEntries (session.start env query).start) ++
        (Iteration.script (session.start env query).start).entries := by
    rw [← session.entries_start,
      ← Script.entries_drained (Iteration.startState (session.start env query).start), ← drained,
      step, withQuery, found]
    exact congrArg Reply.entries (drain_started env .iteration found _ _ fun items =>
      .ofRead .list (items.mapM fun item => item))
  rw [logged, List.append_assoc, entriesIn, ← session.entries_script env .iteration query]
  rfl

end

/-! ## What the entries are -/

variable (session)

theorem openingEntries_open (query : Query) {entry : Log.Entry}
    (listed : entry ∈ openingEntries env query) :
    entry.closes = false ∧ entry.isCompletion = false := by
  unfold openingEntries Environment.buildEntry at listed
  cases built : env.build query with
  | error failure =>
    rw [built] at listed
    cases List.mem_singleton.mp listed
    exact ⟨rfl, rfl⟩
  | ok compiled =>
    rw [built, List.mem_cons, List.mem_singleton] at listed
    rcases listed with rfl | rfl <;> exact ⟨rfl, rfl⟩

/-- The error among the items is what is logged of them. -/
theorem logs_failureEntries {query : Query} {error : QueryError}
    (listed : .error error ∈ session.reference env query) :
    Logs (session.chainOf query).processors (.error error) (session.failureEntries env query) := by
  unfold reference at listed
  unfold failureEntries
  cases outcome : session.resultsOf env query with
  | error cause =>
    rw [outcome] at listed
    cases List.mem_singleton.mp listed
    obtain ⟨failure, rfl⟩ | ⟨refused, rfl⟩ := session.resultsOf_error env outcome
    · exact .compile failure
    · exact .execution refused
  | ok results =>
    rw [outcome] at listed
    exact (session.materializer env query).logs_delivered listed

theorem failureEntries_of_delivered {query : Query}
    (delivered : (session.reference env query).any isFailed = false) :
    session.failureEntries env query = [] := by
  unfold reference at delivered
  unfold failureEntries
  cases outcome : session.resultsOf env query with
  | error cause =>
    rw [outcome] at delivered
    cases delivered
  | ok results =>
    rw [outcome] at delivered
    exact Materializer.entries_of_delivered _ delivered

/-- Either no item is an error and no failure is logged, or one is and is what is logged. -/
theorem failureEntries_cases (query : Query) :
    session.failureEntries env query = [] ∨ ∃ error,
      Logs (session.chainOf query).processors (.error error) (session.failureEntries env query) := by
  cases failed : (session.reference env query).any isFailed with
  | false => exact .inl (session.failureEntries_of_delivered env failed)
  | true =>
    obtain ⟨item, listed, isError⟩ := List.any_eq_true.mp failed
    rcases item with error | value
    · exact .inr ⟨error, session.logs_failureEntries env listed⟩
    · cases isError

theorem length_failures_le (query : Query) : (session.failureEntries env query).length ≤ 1 := by
  rcases session.failureEntries_cases env query with nothing | ⟨error, logs⟩
  · rw [nothing]
    exact Nat.zero_le 1
  · exact logs.length_le

/-- A stream makes no more than one item in vain. -/
theorem wastedEntries_cases (query : Query) :
    session.wastedEntries env query = [] ∨ ∃ item,
      Logs (session.chainOf query).processors item (session.wastedEntries env query) := by
  unfold wastedEntries
  split
  · exact .inl rfl
  next results outcome =>
    simp only [Materializer.behindFailure]
    generalize results.drop _ = rest
    cases rest with
    | nil => exact .inl rfl
    | cons result rest =>
      rw [List.take_succ_cons, List.take_zero, List.flatMap_singleton]
      exact .inr ⟨_, (session.materializer env query).logs_entriesOf result⟩

theorem length_wasted_le (query : Query) : (session.wastedEntries env query).length ≤ 1 := by
  rcases session.wastedEntries_cases env query with nothing | ⟨item, logs⟩
  · rw [nothing]
    exact Nat.zero_le 1
  · exact logs.length_le

/-- Where no item is an error, a stream makes none in vain. -/
theorem wastedEntries_of_delivered {query : Query}
    (delivered : (session.reference env query).any isFailed = false) :
    session.wastedEntries env query = [] := by
  unfold reference at delivered
  unfold wastedEntries
  split
  · rfl
  next results outcome =>
    rw [outcome] at delivered
    exact congrArg (List.flatMap _) (Materializer.behindFailure_of_delivered _ delivered)

theorem closes_failureEntries {query : Query} {entry : Log.Entry}
    (listed : entry ∈ session.failureEntries env query) :
    entry.closes = true ∧ entry.isCompletion = false := by
  rcases session.failureEntries_cases env query with nothing | ⟨error, logs⟩
  · rw [nothing] at listed
    cases listed
  · exact logs.closes listed

theorem closes_wastedEntries {query : Query} {entry : Log.Entry}
    (listed : entry ∈ session.wastedEntries env query) :
    entry.closes = true ∧ entry.isCompletion = false := by
  rcases session.wastedEntries_cases env query with nothing | ⟨item, logs⟩
  · rw [nothing] at listed
    cases listed
  · exact logs.closes listed

theorem closes_closingEntries (query : Query) (mode : Mode) {entry : Log.Entry}
    (listed : entry ∈ session.closingEntries env query mode) : entry.closes = true := by
  cases mode with
  | iteration =>
    rcases List.mem_append.mp listed with failure | completion
    · exact (session.closes_failureEntries env failure).1
    · rw [completionEntry] at completion
      split at completion
      · cases completion
      · cases List.mem_singleton.mp completion
        rfl
  | stream =>
    rcases List.mem_append.mp listed with failure | wasted
    · exact (session.closes_failureEntries env failure).1
    · exact (session.closes_wastedEntries env wasted).1

/-- An enumeration ends with what closes it as far as there is no more than one such entry. -/
theorem closesLast_entriesIn (query : Query) (mode : Mode) :
    Log.ClosesLast (session.entriesIn env query mode) ↔
      (session.closingEntries env query mode).length ≤ 1 :=
  Log.closesLast_append (fun _ listed => (openingEntries_open env query listed).1)
    fun _ listed => session.closes_closingEntries env query mode listed

theorem closesLast_iteration (query : Query) :
    Log.ClosesLast (session.entriesIn env query .iteration) := by
  rw [closesLast_entriesIn]
  simp only [closingEntries, completionEntry]
  split
  next failed =>
    rw [List.append_nil]
    exact session.length_failures_le env query
  next delivered =>
    rw [session.failureEntries_of_delivered env (Bool.eq_false_iff.mpr delivered)]
    exact Nat.le_refl 1

/-- Behind a failure that is logged, a stream logs that of the item which it makes in vain. -/
theorem closesLast_stream (query : Query) :
    Log.ClosesLast (session.entriesIn env query .stream) ↔
      session.failureEntries env query = [] ∨ session.wastedEntries env query = [] := by
  have failures := session.length_failures_le env query
  have wasted := session.length_wasted_le env query
  rw [closesLast_entriesIn, closingEntries, List.length_append,
    ← List.length_eq_zero_iff, ← List.length_eq_zero_iff]
  omega

/-- Of a stream, no entry is one for its end. -/
theorem filter_isCompletion (query : Query) (mode : Mode) :
    (session.entriesIn env query mode).filter Log.Entry.isCompletion =
      match mode with
      | .iteration => completionEntry env.type.name 0 (session.reference env query)
      | .stream => [] := by
  have opening : (openingEntries env query).filter Log.Entry.isCompletion = [] :=
    List.filter_eq_nil_iff.mpr fun entry listed =>
      Bool.eq_false_iff.mp (openingEntries_open env query listed).2
  have failures : (session.failureEntries env query).filter Log.Entry.isCompletion = [] :=
    List.filter_eq_nil_iff.mpr fun entry listed =>
      Bool.eq_false_iff.mp (session.closes_failureEntries env listed).2
  have wasted : (session.wastedEntries env query).filter Log.Entry.isCompletion = [] :=
    List.filter_eq_nil_iff.mpr fun entry listed =>
      Bool.eq_false_iff.mp (session.closes_wastedEntries env listed).2
  rw [entriesIn, List.filter_append, opening, List.nil_append]
  cases mode with
  | iteration =>
    simp only [closingEntries, List.filter_append, failures, List.nil_append, completionEntry]
    split <;> rfl
  | stream => rw [closingEntries, List.filter_append, failures, wasted, List.nil_append]

/-- Without an error, an iteration logs its end and a stream does not. -/
theorem entriesIn_of_delivered {query : Query}
    (delivered : (session.reference env query).any isFailed = false) :
    session.entriesIn env query .iteration = session.entriesIn env query .stream ++
      [.ofCompletion env.type.name (session.reference env query).length] := by
  have nothing := session.wastedEntries_of_delivered env delivered
  simp only [entriesIn, closingEntries, completionEntry, delivered, nothing, List.append_nil,
    List.append_assoc, Bool.false_eq_true, if_false, Nat.zero_add]

/-- With one, neither does, and a stream logs what it makes in vain. -/
theorem entriesIn_of_failed {query : Query}
    (failed : (session.reference env query).any isFailed = true) :
    session.entriesIn env query .stream = session.entriesIn env query .iteration ++
      session.wastedEntries env query := by
  simp only [entriesIn, closingEntries, completionEntry, failed, List.append_nil,
    List.append_assoc, if_true]

/-- Enumerations log what `entriesIn` says, drained at once or pulled in the midst of any
commands. An iteration that gives no error logs at its end how many items it gave, one that gives
an error does not, and nothing follows that entry or a failure. A stream logs the same without
that entry, and behind a failure that of the item which it then makes in vain. The failure is the
error among the items, if that is one to be logged. Processors are functions of the entity and keep
no state of their own. -/
theorem completion_of_enumeration (env : Environment τ) (session : Session τ) {id : Nat}
    {query : Query} (found : session.queries[id]? = some query) :
    let items := session.reference env query
    let iterated := session.entriesIn env query .iteration
    let streamed := session.entriesIn env query .stream
    let completion := Log.Entry.ofCompletion env.type.name items.length
    let failures := session.failureEntries env query
    let wasted := session.wastedEntries env query
    (∀ mode : Mode,
      let entries := session.entriesIn env query mode
      let started := session.step env (mode.starting id)
      Log.Logger.written ⟨.trace⟩ (session.step env (mode.draining id)).entries = entries ∧
      ∀ commands : List (Command τ),
        let pull := session.pulls.length
        let written := Log.Logger.written ⟨.trace⟩ (started.entries ++
          entriesTo pull commands (started.session.run env commands).2)
        written <+: entries ∧ (mode = .iteration → Log.ClosesLast written) ∧
          (items.length < pullsFrom pull commands → written = entries)) ∧
    Log.Logger.written ⟨.trace⟩ (session.step env (.toList id)).entries = iterated ∧
    (iterated.filter Log.Entry.isCompletion = if items.any isFailed then [] else [completion]) ∧
    Log.ClosesLast iterated ∧
    streamed.filter Log.Entry.isCompletion = [] ∧
    (items.any isFailed = false → iterated = streamed ++ [completion]) ∧
    (items.any isFailed = true → streamed = iterated ++ wasted) ∧
    (Log.ClosesLast streamed ↔ failures = [] ∨ wasted = []) ∧
    (∀ error, .error error ∈ items →
      Logs (session.chainOf query).processors (.error error) failures) ∧
    (items.any isFailed = false → failures = []) := by
  intro items iterated streamed completion failures wasted
  have completes : completionEntry env.type.name 0 items =
      if items.any isFailed then [] else [completion] := by
    rw [completionEntry, Nat.zero_add]
  refine ⟨?_, ?_, ?_, session.closesLast_iteration env query, ?_, ?_, ?_,
    session.closesLast_stream env query, ?_, session.failureEntries_of_delivered env⟩
  · intro mode entries started
    refine ⟨?_, ?_⟩
    · rw [Log.Logger.written_trace, entries_draining env found]
    · intro commands pull written
      obtain ⟨begins, ends⟩ := entries_run_starting env found mode commands
      rw [show written = _ from Log.Logger.written_trace _]
      refine ⟨begins, ?_, ends⟩
      rintro rfl
      exact (session.closesLast_iteration env query).of_begins begins
  · rw [Log.Logger.written_trace, entries_toList env found]
  · rw [← completes]
    exact session.filter_isCompletion env query .iteration
  · exact session.filter_isCompletion env query .stream
  · exact session.entriesIn_of_delivered env
  · exact session.entriesIn_of_failed env
  · exact fun _ => session.logs_failureEntries env

/-- A store of two documents that a guard refuses. -/
def refusedSession : Session Json :=
  { store := { documents := [.obj [("Bad", .bool true)], .obj [("Bad", .bool true)]] }
    chains := [{ processors :=
      [⟨"guard", fun document => { entity := document, failure := some ⟨"rule", "bad"⟩ }⟩] }]
    queries := [everything] }

theorem completion_of_enumeration_plain :
    let commands : List (Command Json) := [.next 0, .streamAll 0, .next 0]
    let started := plainSession.step plainDocuments (.iterate 0)
    let run := started.session.run plainDocuments commands
    plainSession.queries[0]? = some everything ∧
      (plainSession.reference plainDocuments everything).length < pullsFrom 0 commands ∧
      (Log.Logger.written ⟨.trace⟩ (started.entries ++ entriesTo 0 commands run.2)).filter
        Log.Entry.isCompletion = [.ofCompletion "Doc" 1] ∧
      (plainSession.reference plainDocuments everything).any isFailed = false ∧
      plainSession.entriesIn plainDocuments everything .iteration =
        plainSession.entriesIn plainDocuments everything .stream ++ [.ofCompletion "Doc" 1] ∧
      refusedSession.queries[0]? = some everything ∧
      (refusedSession.reference plainDocuments everything).any isFailed = true ∧
      refusedSession.entriesIn plainDocuments everything .stream =
        refusedSession.entriesIn plainDocuments everything .iteration ++
          [.ofEvent .processorFailed [("code", "AERO_PROCESSOR_FAILED"), ("processor", "guard"),
            ("reason", "bad")]] := by
  intro commands started run
  obtain ⟨each, -, completes, -, -, clean, -⟩ := completion_of_enumeration plainDocuments
    plainSession (show plainSession.queries[0]? = some everything from rfl)
  obtain ⟨-, -, -, -, -, -, behind, -⟩ := completion_of_enumeration plainDocuments refusedSession
    (show refusedSession.queries[0]? = some everything from rfl)
  have enough : (plainSession.reference plainDocuments everything).length <
      pullsFrom 0 commands := by decide
  have logged := ((each .iteration).2 commands).2.2 enough
  refine ⟨rfl, enough, ?_, rfl, clean rfl, rfl, rfl, ?_⟩
  · rw [show Log.Logger.written ⟨.trace⟩ (started.entries ++ entriesTo 0 commands run.2) = _
      from logged]
    exact completes
  · exact behind rfl

/-- A stream that gives no error does not log its end, and one that fails may log two failures. -/
theorem stream_logs_no_end :
    let written := Log.Logger.written ⟨.trace⟩
      (plainSession.step plainDocuments (.streamAll 0)).entries
    (plainSession.reference plainDocuments everything).any isFailed = false ∧
      written.filter Log.Entry.isCompletion = [] ∧
      ¬ Log.ClosesLast (Log.Logger.written ⟨.trace⟩
        (refusedSession.step plainDocuments (.streamAll 0)).entries) := by
  refine ⟨rfl, rfl, fun last => ?_⟩
  have closes := last _ (.tail _ (.tail _ (.head _)))
  cases closes

end Session
end DocQuery
