import DocQuery.Proofs.Query.Reference
import DocQuery.Proofs.Query.Script

/-!
# Enumerations follow scripts

Cursors, iterations and streams are machines that are pulled; here each is shown to follow a
script that its start determines. The script of a stream is put together from the combinators
that asynchronous results pass through: made into items, cut behind the first failure, reported
to the query, and followed by the settling of the query's state. All scripts have the items
that the results stand for. Those of iterations and streams report the lifecycle of what they
gave, and differ in their effects only by those of the result behind the first failure.
-/
namespace DocQuery

variable {τ : Type}

open Processor (Invocation)

/-! ## Following a script -/

/-- What happened in a pull. -/
def Pulled.work {σ : Type} (pulled : Pulled τ σ) : Work :=
  { transition := pulled.transition, entries := pulled.entries, effects := pulled.effects }

namespace Enumeration

/-- Pulls give nothing and do nothing any more. -/
def Idle (enumeration : Enumeration τ) : Prop :=
  enumeration.next = { item := none, rest := enumeration }

/-- Pulls give what a script says. -/
def Follows : Script (ItemResult τ) → Enumeration τ → Prop
  | .ends work, enumeration =>
    enumeration.next.item = none ∧ enumeration.next.work = work ∧ Idle enumeration.next.rest
  | .yields work item rest, enumeration =>
    enumeration.next.item = some item ∧ enumeration.next.work = work ∧
      Follows rest enumeration.next.rest

/-- What a pull gives when some work is done in it. -/
def gives (item : Option (ItemResult τ)) (work : Work) (rest : Enumeration τ) :
    Pulled τ (Enumeration τ) :=
  { item, rest, transition := work.transition, entries := work.entries, effects := work.effects }

theorem follows_ends {enumeration rest : Enumeration τ} {work : Work}
    (next : enumeration.next = gives none work rest) (idle : rest.Idle) :
    Follows (.ends work) enumeration := by
  rw [Follows, next]
  exact ⟨rfl, rfl, idle⟩

theorem follows_yields {enumeration rest : Enumeration τ} {work : Work} {item : ItemResult τ}
    {script : Script (ItemResult τ)} (next : enumeration.next = gives (some item) work rest)
    (behind : Follows script rest) : Follows (.yields work item script) enumeration := by
  rw [Follows, next]
  exact ⟨rfl, rfl, behind⟩

theorem Idle.follows {enumeration : Enumeration τ} (idle : enumeration.Idle) :
    Follows (.ends .idle) enumeration :=
  follows_ends idle idle

/-- One pull of an enumeration is one pull of its script. -/
theorem Follows.step {script : Script (ItemResult τ)} {enumeration : Enumeration τ}
    (follows : Follows script enumeration) :
    enumeration.next.item = script.answer ∧ enumeration.next.work = script.work ∧
      Follows script.rest enumeration.next.rest := by
  cases script with
  | ends work => exact ⟨follows.1, follows.2.1, follows.2.2.follows⟩
  | yields work item rest => exact follows

end Enumeration

namespace Script

/-- What draining a script up to an item to stop at gives. -/
def drained (stop : ItemResult τ → Bool) : QueryState → Script (ItemResult τ) → Drained τ
  | state, .ends work => ⟨[], work.transition.apply state, work.entries, work.effects⟩
  | state, .yields work item rest =>
    let state := work.transition.apply state
    if stop item then ⟨[item], state, work.entries, work.effects⟩
    else
      let others := rest.drained stop state
      { others with
        items := item :: others.items
        entries := work.entries ++ others.entries
        effects := work.effects ++ others.effects }

end Script

/-- Draining an enumeration drains its script, if there are pulls enough. -/
theorem Enumeration.Follows.pullAll {script : Script (ItemResult τ)} {enumeration : Enumeration τ}
    (follows : Follows script enumeration) (stop : ItemResult τ → Bool) {pulls : Nat}
    (enough : script.items.length < pulls) (state : QueryState) :
    enumeration.pullAll stop pulls state = script.drained stop state := by
  induction script generalizing enumeration pulls state with
  | ends work =>
    obtain ⟨none, rfl, -⟩ := follows
    obtain ⟨pulls, rfl⟩ := Nat.exists_eq_succ_of_ne_zero (Nat.ne_of_gt enough)
    rw [Enumeration.pullAll]
    simp only [none]
    rfl
  | yields work item rest ih =>
    obtain ⟨some, rfl, behind⟩ := follows
    obtain ⟨pulls, rfl⟩ := Nat.exists_eq_succ_of_ne_zero (Nat.ne_of_gt (Nat.zero_lt_of_lt enough))
    have left : rest.items.length < pulls := Nat.lt_of_succ_lt_succ enough
    rw [Enumeration.pullAll, Script.drained]
    simp only [some, ih behind left]
    rfl

namespace Script

variable {script : Script (ItemResult τ)}

theorem items_drained (stop : ItemResult τ → Bool) (state : QueryState)
    (script : Script (ItemResult τ)) :
    (script.drained stop state).items = cutAfter stop script.items := by
  induction script generalizing state with
  | ends work => rfl
  | yields work item rest ih =>
    rw [drained, items, cutAfter]
    split
    · rfl
    · exact congrArg _ (ih _)

theorem effects_drained (state : QueryState) (script : Script (ItemResult τ)) :
    (script.drained (fun _ => false) state).effects = script.effects := by
  induction script generalizing state with
  | ends work => rfl
  | yields work item rest ih => exact congrArg _ (ih _)

theorem entries_drained (state : QueryState) (script : Script (ItemResult τ)) :
    (script.drained (fun _ => false) state).entries = script.entries := by
  induction script generalizing state with
  | ends work => rfl
  | yields work item rest ih => exact congrArg _ (ih _)

/-- It matters only for items of the script whether to stop at them. -/
theorem drained_congr {stop other : ItemResult τ → Bool}
    (same : ∀ item ∈ script.items, stop item = other item) (state : QueryState) :
    script.drained stop state = script.drained other state := by
  induction script generalizing state with
  | ends work => rfl
  | yields work item rest ih =>
    have tail := ih fun later listed => same later (List.mem_cons_of_mem _ listed)
    rw [drained, drained, same item List.mem_cons_self]
    simp only [tail]

/-- Nothing is to come and nothing is done behind a failure. -/
def StopsAtFailure : Script (ItemResult τ) → Prop
  | .ends _ => True
  | .yields _ item rest => if isFailed item then rest = .ends .idle else rest.StopsAtFailure

theorem StopsAtFailure.drained (stops : script.StopsAtFailure) (state : QueryState) :
    script.drained isFailed state = script.drained (fun _ => false) state := by
  induction script generalizing state with
  | ends work => rfl
  | yields work item rest ih =>
    rw [Script.drained, Script.drained]
    rw [StopsAtFailure] at stops
    split at stops
    next failed =>
      subst stops
      simp [failed, Script.drained, Work.idle, Transition.apply]
    next delivered => simp [delivered, ih stops]

end Script

/-! ## The lifecycle that pulls report -/

/-- The lifecycle of an enumeration by what it gave: the first end or error decides. -/
def lifecycle : List (Option (ItemResult τ)) → QueryState
  | [] => .enumerating
  | none :: _ => .exhausted
  | some (.error _) :: _ => .faulted
  | some (.ok _) :: rest => lifecycle rest

/-- The lifecycle after one more pull. -/
def QueryState.after (state : QueryState) : Option (ItemResult τ) → QueryState
  | none => if state = .enumerating then .exhausted else state
  | some (.error _) => if state = .enumerating then .faulted else state
  | some (.ok _) => state

theorem foldl_after_of_ended {state : QueryState} (ended : state ≠ .enumerating)
    (answers : List (Option (ItemResult τ))) : answers.foldl QueryState.after state = state := by
  induction answers with
  | nil => rfl
  | cons answer rest ih =>
    have kept : state.after answer = state := by
      rcases answer with none | error | item <;> simp [QueryState.after, ended]
    rw [List.foldl_cons, kept, ih]

theorem foldl_after (answers : List (Option (ItemResult τ))) :
    answers.foldl QueryState.after .enumerating = lifecycle answers := by
  induction answers with
  | nil => rfl
  | cons answer rest ih =>
    rcases answer with none | error | item
    · exact foldl_after_of_ended QueryState.noConfusion rest
    · exact foldl_after_of_ended QueryState.noConfusion rest
    · exact ih

theorem lifecycle_of_end (items : List (ItemResult τ)) (rest : List (Option (ItemResult τ))) :
    lifecycle (items.map some ++ none :: rest) =
      if items.any isFailed then .faulted else .exhausted := by
  induction items with
  | nil => rfl
  | cons item others ih =>
    rcases item with error | value
    · rfl
    · exact ih

namespace Script

/-- Pulling a script in a state reports the lifecycle of what it gives. -/
def Reports : QueryState → Script (ItemResult τ) → Prop
  | state, .ends work => work.transition.apply state = state.after (τ := τ) none
  | state, .yields work item rest =>
    work.transition.apply state = state.after (some item) ∧ rest.Reports (state.after (some item))

theorem Reports.step {state : QueryState} {script : Script (ItemResult τ)}
    (reports : script.Reports state) :
    script.work.transition.apply state = state.after script.answer ∧
      script.rest.Reports (state.after script.answer) := by
  cases script with
  | yields work item rest => exact reports
  | ends work =>
    refine ⟨reports, ?_⟩
    change _ = QueryState.after (τ := τ) _ none
    cases state <;> rfl

theorem Reports.drained {state : QueryState} {script : Script (ItemResult τ)}
    (reports : script.Reports state) :
    (script.drained (fun _ => false) state).state =
      (script.items.map some ++ [none]).foldl QueryState.after state := by
  induction script generalizing state with
  | ends work => exact reports
  | yields work item rest ih =>
    rw [Script.drained, items, List.map_cons, List.cons_append, List.foldl_cons]
    simp only [reports.1]
    exact ih reports.2

end Script

/-! ## Results as items -/

namespace Materializer

variable (m : Materializer τ)

/-- The work of making an item of a result. -/
def work (result : Except ExecutionError Json) : Work :=
  { entries := (m.make result).entries, effects := (m.make result).effects }

/-- A result made into an item as it is pulled. -/
def poll (result : Except ExecutionError Json) : Work × ItemResult τ :=
  (m.work result, (m.make result).item)

end Materializer

/-- A failure faults the query. -/
def report (item : ItemResult τ) : Work :=
  if isFailed item then { transition := .become .faulted } else .idle

theorem Materializer.work_report_error (m : Materializer τ) (result : Except ExecutionError Json)
    (error : QueryError) : m.work result ++ report (.error error : ItemResult τ) =
      { m.work result with transition := .become .faulted } := by
  change Work.mk _ ((m.make result).entries ++ []) ((m.make result).effects ++ []) = _
  rw [List.append_nil, List.append_nil]
  rfl

theorem Materializer.work_report_ok (m : Materializer τ) (result : Except ExecutionError Json)
    (item : Item τ) : m.work result ++ report (.ok item : ItemResult τ) = m.work result :=
  Work.append_idle _

theorem Materializer.effects_work_report (m : Materializer τ)
    (result : Except ExecutionError Json) : (m.work result ++ report (m.make result).item).effects =
      (m.invocationsOf result).flatMap Invocation.effects := by
  rw [← m.effects_make]
  cases (m.make result).item with
  | error error => rw [m.work_report_error]; rfl
  | ok item => rw [m.work_report_ok]; rfl

/-! ## Bare cursors -/

namespace Cursor

/-- The script of a cursor over results, behind some items. -/
def scriptOf (m : Materializer τ) : Nat → ResultStream → Script (ItemResult τ)
  | yielded, [] => .ends { entries := [completed { materializer := m, remaining := [], yielded }] }
  | yielded, result :: rest =>
    .yields (m.work result) (m.make result).item
      (if isFailed (m.make result).item then .ends .idle else scriptOf m (yielded + 1) rest)

theorem idle_done (cursor : Cursor τ) :
    Enumeration.Idle (.cursor { cursor with done := true }) := rfl

theorem follows_scriptOf (m : Materializer τ) (yielded : Nat) (results : ResultStream) :
    Enumeration.Follows (scriptOf m yielded results)
      (.cursor { materializer := m, remaining := results, yielded }) := by
  induction results generalizing yielded with
  | nil => exact Enumeration.follows_ends rfl (idle_done _)
  | cons result rest ih =>
    rw [scriptOf]
    cases made : (m.make result).item with
    | error error =>
      let ended : Cursor τ := { materializer := m, remaining := rest, yielded }
      refine Enumeration.follows_yields ?_ (idle_done ended).follows
      simp only [Enumeration.next, next, made]
      rfl
    | ok item =>
      refine Enumeration.follows_yields ?_ (ih (yielded + 1))
      simp only [Enumeration.next, next, made]
      rfl

theorem items_scriptOf (m : Materializer τ) (yielded : Nat) (results : ResultStream) :
    (scriptOf m yielded results).items = cutAfter isFailed (results.map m.itemOf) := by
  induction results generalizing yielded with
  | nil => rfl
  | cons result rest ih =>
    rw [scriptOf, Script.items, List.map_cons, cutAfter, m.item_make]
    cases isFailed (m.itemOf result) with
    | true => rfl
    | false => exact congrArg _ (ih _)

end Cursor

/-! ## Iterations -/

namespace Iteration

/-- The script of an iteration over results, behind some items. -/
def scriptOf (m : Materializer τ) : Nat → ResultStream → Script (ItemResult τ)
  | yielded, [] =>
    .ends
      { transition := .become .exhausted
        entries := [Cursor.completed { materializer := m, remaining := [], yielded }] }
  | yielded, result :: rest =>
    let (work, item) := m.poll result
    .yields (work ++ report item) item
      (if isFailed item then .ends .idle else scriptOf m (yielded + 1) rest)

/-- The script of an iteration. -/
def script : Start τ → Script (ItemResult τ)
  | .error error => .once (report (.error error : ItemResult τ)) (.error error)
  | .ok (_, .error error) =>
    .once (report (.error (.execution error) : ItemResult τ)) (.error (.execution error))
  | .ok (m, .ok results) => scriptOf m 0 results

theorem scriptOf_cons (m : Materializer τ) (yielded : Nat) (result : Except ExecutionError Json)
    (rest : ResultStream) :
    scriptOf m yielded (result :: rest) =
      .yields (m.work result ++ report (m.make result).item) (m.make result).item
        (if isFailed (m.make result).item then .ends .idle else scriptOf m (yielded + 1) rest) :=
  rfl

theorem idle_nothing : Enumeration.Idle (.iteration ({} : Iteration τ)) := rfl

theorem follows_scriptOf (m : Materializer τ) (yielded : Nat) (results : ResultStream) :
    Enumeration.Follows (scriptOf m yielded results)
      (.iteration { cursor := some { materializer := m, remaining := results, yielded } }) := by
  induction results generalizing yielded with
  | nil => exact Enumeration.follows_ends rfl idle_nothing
  | cons result rest ih =>
    rw [scriptOf_cons]
    cases made : (m.make result).item with
    | error error =>
      refine Enumeration.follows_yields ?_ idle_nothing.follows
      rw [m.work_report_error]
      simp only [Enumeration.next, next, Cursor.next, made]
      rfl
    | ok item =>
      refine Enumeration.follows_yields ?_ (ih (yielded + 1))
      rw [m.work_report_ok]
      simp only [Enumeration.next, next, Cursor.next, made]
      rfl

theorem follows_script (start : Start τ) :
    Enumeration.Follows (script start) (.iteration (ofStart start)) := by
  match start with
  | .error error => exact Enumeration.follows_yields rfl idle_nothing.follows
  | .ok (_, .error error) => exact Enumeration.follows_yields rfl idle_nothing.follows
  | .ok (m, .ok results) => exact follows_scriptOf m 0 results

variable (m : Materializer τ) (yielded : Nat) (results : ResultStream)

theorem items_scriptOf :
    (scriptOf m yielded results).items = cutAfter isFailed (results.map m.itemOf) := by
  induction results generalizing yielded with
  | nil => rfl
  | cons result rest ih =>
    rw [scriptOf_cons, Script.items, List.map_cons, cutAfter, m.item_make]
    cases isFailed (m.itemOf result) with
    | true => rfl
    | false => exact congrArg _ (ih _)

theorem effects_scriptOf : (scriptOf m yielded results).effects =
    ((m.delivered results).flatMap m.invocationsOf).flatMap Invocation.effects := by
  induction results generalizing yielded with
  | nil => rfl
  | cons result rest ih =>
    rw [scriptOf_cons, Script.effects, m.effects_work_report, Materializer.delivered,
      cutAfter, List.flatMap_cons, List.flatMap_append, m.item_make]
    cases isFailed (m.itemOf result) with
    | true => rfl
    | false => exact congrArg _ (ih _)

theorem stopsAtFailure_scriptOf : (scriptOf m yielded results).StopsAtFailure := by
  induction results generalizing yielded with
  | nil => trivial
  | cons result rest ih =>
    rw [scriptOf_cons, Script.StopsAtFailure]
    split
    next failed => rfl
    next delivered => exact ih _

theorem reports_scriptOf : (scriptOf m yielded results).Reports .enumerating := by
  induction results generalizing yielded with
  | nil => rfl
  | cons result rest ih =>
    rw [scriptOf_cons]
    cases (m.make result).item with
    | error error => exact ⟨rfl, rfl⟩
    | ok item => exact ⟨rfl, ih _⟩

theorem stopsAtFailure_script (start : Start τ) : (script start).StopsAtFailure := by
  match start with
  | .error error => rfl
  | .ok (_, .error error) => rfl
  | .ok (m, .ok results) => exact stopsAtFailure_scriptOf m 0 results

theorem reports_script (start : Start τ) : (script start).Reports (startState start) := by
  match start with
  | .error error => exact ⟨rfl, rfl⟩
  | .ok (_, .error error) => exact ⟨rfl, rfl⟩
  | .ok (m, .ok results) => exact reports_scriptOf m 0 results

theorem drain_eq (start : Start τ) (stop : ItemResult τ → Bool) (state : QueryState) :
    (Enumeration.iteration (ofStart start)).drain stop state =
      (script start).drained stop state := by
  apply (follows_script start).pullAll
  match start with
  | .error error => exact Nat.lt_succ_self 1
  | .ok (_, .error error) => exact Nat.lt_succ_self 1
  | .ok (m, .ok results) =>
    have short := length_cutAfter_le isFailed (results.map m.itemOf)
    rw [List.length_map] at short
    rw [script, items_scriptOf]
    exact Nat.lt_of_le_of_lt short (Nat.lt_add_of_pos_right Nat.two_pos)

end Iteration

/-! ## Streams -/

namespace Stream

/-- Items up to the first failure. -/
def untilFailure (faulted : Bool) (item : ItemResult τ) : Bool × Option (ItemResult τ) :=
  if faulted then (true, none) else (isFailed item, some item)

/-- The results as they come, made into items until one fails. -/
def executed : Start τ → Script (ItemResult τ)
  | .error error => .once .idle (.error error)
  | .ok (m, results) =>
    ((Script.ofList (Store.streamOf results)).map m.poll).scan untilFailure false

/-- The end of a stream settles the state of its query. -/
def settling : Work :=
  { transition := .settle }

theorem effects_settling (work : Work) : (work ++ settling).effects = work.effects :=
  List.append_nil work.effects

theorem entries_settling (work : Work) : (work ++ settling).entries = work.entries :=
  List.append_nil work.entries

/-- Items reported to the query that they belong to. -/
def reported (items : Script (ItemResult τ)) : Script (ItemResult τ) :=
  ((items.map fun item => (report item, some item)).chain (.once settling none)).filterMap id

/-- The script of a stream. -/
def script (start : Start τ) : Script (ItemResult τ) :=
  reported (executed start)

theorem reported_ends (work : Work) :
    reported (.ends work : Script (ItemResult τ)) = .ends (work ++ settling) := by
  simp [reported, Script.map, Script.chain, Script.once, Script.after, Script.filterMap]

theorem reported_yields (work : Work) (item : ItemResult τ) (rest : Script (ItemResult τ)) :
    reported (.yields work item rest) = .yields (work ++ report item) item (reported rest) := rfl

/-- The items of results, reported. -/
def scriptOf (m : Materializer τ) (results : ResultStream) : Script (ItemResult τ) :=
  reported (((Script.ofList results).map m.poll).scan untilFailure false)

/-- The work for the first of the results, which is made into an item in vain. -/
def wasted (m : Materializer τ) : ResultStream → Work
  | [] => .idle
  | result :: _ => m.work result

theorem scan_faulted (m : Materializer τ) (results : ResultStream) :
    ((Script.ofList results).map m.poll).scan untilFailure true = .ends (wasted m results) := by
  cases results with
  | nil => rfl
  | cons result rest => simp [Script.ofList, Script.map, Script.scan, untilFailure, wasted,
      Materializer.poll]

theorem scriptOf_nil (m : Materializer τ) : scriptOf m [] = .ends settling :=
  (reported_ends _).trans (by rw [Work.idle_append])

theorem scriptOf_cons (m : Materializer τ) (result : Except ExecutionError Json)
    (rest : ResultStream) :
    scriptOf m (result :: rest) =
      .yields (m.work result ++ report (m.make result).item) (m.make result).item
        (if isFailed (m.make result).item then .ends (wasted m rest ++ settling)
          else scriptOf m rest) := by
  simp only [scriptOf, Script.ofList, Script.map, Script.scan, untilFailure, Materializer.poll,
    Work.idle_append, if_false, Bool.false_eq_true]
  rw [reported_yields]
  cases isFailed (m.make result).item with
  | false => rfl
  | true =>
    rw [if_pos rfl, ← reported_ends, ← scan_faulted]

theorem idle_ended : Enumeration.Idle (.stream (.ended : Stream τ)) := rfl

theorem follows_faulted (m : Materializer τ) (results : ResultStream) :
    Enumeration.Follows (.ends (wasted m results ++ settling)) (.stream (.faulted m results)) := by
  cases results with
  | nil => exact Enumeration.follows_ends rfl idle_ended
  | cons result rest =>
    have appended : m.work result ++ settling = { m.work result with transition := .settle } := by
      change Work.mk _ ((m.make result).entries ++ []) ((m.make result).effects ++ []) = _
      rw [List.append_nil, List.append_nil]
      rfl
    refine Enumeration.follows_ends ?_ idle_ended
    rw [wasted, appended]
    rfl

theorem follows_scriptOf (m : Materializer τ) (results : ResultStream) :
    Enumeration.Follows (scriptOf m results) (.stream (.running m results)) := by
  induction results with
  | nil =>
    rw [scriptOf_nil]
    exact Enumeration.follows_ends rfl idle_ended
  | cons result rest ih =>
    rw [scriptOf_cons]
    cases made : (m.make result).item with
    | error error =>
      refine Enumeration.follows_yields ?_ (follows_faulted m rest)
      rw [m.work_report_error]
      simp only [Enumeration.next, next, made]
      rfl
    | ok item =>
      refine Enumeration.follows_yields ?_ ih
      rw [m.work_report_ok]
      simp only [Enumeration.next, next, made]
      rfl

theorem follows_script (start : Start τ) :
    Enumeration.Follows (script start) (.stream (ofStart start)) := by
  match start with
  | .error error =>
    rw [script, executed, Script.once, reported_yields, reported_ends]
    exact Enumeration.follows_yields rfl (Enumeration.follows_ends rfl idle_ended)
  | .ok (m, results) => exact follows_scriptOf m (Store.streamOf results)

variable (m : Materializer τ) (results : ResultStream)

theorem items_scriptOf :
    (scriptOf m results).items = cutAfter isFailed (results.map m.itemOf) := by
  induction results with
  | nil => rw [scriptOf_nil]; rfl
  | cons result rest ih =>
    rw [scriptOf_cons, Script.items, List.map_cons, cutAfter, m.item_make]
    cases isFailed (m.itemOf result) with
    | true => rfl
    | false => exact congrArg _ ih

/-- A stream has the effects of the delivered results and of the one behind a failure. -/
theorem effects_scriptOf : (scriptOf m results).effects =
    ((m.delivered results ++ m.behindFailure results).flatMap m.invocationsOf).flatMap
      Invocation.effects := by
  induction results with
  | nil => rw [scriptOf_nil]; rfl
  | cons result rest ih =>
    rw [scriptOf_cons, Script.effects, m.effects_work_report, Materializer.behindFailure,
      Materializer.delivered, cutAfter, m.item_make]
    cases isFailed (m.itemOf result) with
    | false =>
      simp only [Bool.false_eq_true, if_false, List.length_cons, List.drop_succ_cons,
        List.cons_append, List.flatMap_cons, List.flatMap_append] at ih ⊢
      rw [ih]
      rfl
    | true =>
      cases rest with
      | nil => simp [Script.effects, wasted, Work.idle, effects_settling]
      | cons next others =>
        simp [Script.effects, wasted, effects_settling, Materializer.work, m.effects_make]

theorem reports_scriptOf : (scriptOf m results).Reports .enumerating := by
  induction results with
  | nil => rw [scriptOf_nil]; rfl
  | cons result rest ih =>
    rw [scriptOf_cons]
    cases (m.make result).item with
    | ok item => exact ⟨rfl, ih⟩
    | error error =>
      refine ⟨rfl, ?_⟩
      cases rest <;> rfl

theorem reports_script (start : Start τ) : (script start).Reports .enumerating := by
  match start with
  | .error error => exact ⟨rfl, rfl⟩
  | .ok (m, results) => exact reports_scriptOf m (Store.streamOf results)

theorem drain_eq (start : Start τ) (stop : ItemResult τ → Bool) (state : QueryState) :
    (Enumeration.stream (ofStart start)).drain stop state =
      (script start).drained stop state := by
  apply (follows_script start).pullAll
  match start with
  | .error error => exact Nat.lt_succ_self 1
  | .ok (m, results) =>
    have short := length_cutAfter_le isFailed ((Store.streamOf results).map m.itemOf)
    rw [List.length_map] at short
    change (scriptOf m (Store.streamOf results)).items.length < _
    rw [items_scriptOf]
    exact Nat.lt_of_le_of_lt short (Nat.lt_add_of_pos_right Nat.two_pos)

end Stream

end DocQuery
