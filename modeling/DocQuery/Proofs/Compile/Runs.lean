import DocQuery.Collection.Store
import DocQuery.Compile.Build
import DocQuery.Proofs.Collection.Sorting
import DocQuery.Proofs.Computed.Evaluation
import DocQuery.Proofs.Scope.Plain

/-!
# Compiled queries run

A collection refuses stages that it cannot read: a marked name where a path should be, or a
marked name over anything but a list of arguments. `compile_runs` shows that no compiled
query is refused, on whatever documents, if stored names are plain and selections are
legible: what a selection constructs has plain names, and no construction inside of it has
a marked name alone. Each operation is lowered to a stage that is not refused on any documents,
and leaves plain documents to the operations behind it.

A sort of documents that its keys do not order may end the program, which is no refusal. Where
every sort meets documents that its keys do order, the query has a result, and one result only.
-/
namespace DocQuery

namespace Stage

/-- A stage that is not refused on any documents, however a sorter leaves them. -/
def Total (stage : Stage) : Prop :=
  ∀ sorter documents, ∃ results, Evaluate.applyStage sorter stage documents = .ok results

theorem total_match {body : Members}
    (answers : ∀ document, ∃ answer, Match.holds document body = .ok answer) :
    Total ⟨"$match", .obj body⟩ := by
  intro _ documents
  change ∃ results, Evaluate.filter body documents = .ok results
  induction documents with
  | nil => exact ⟨[], rfl⟩
  | cons document rest ih =>
    obtain ⟨answer, held⟩ := answers document
    obtain ⟨others, restOk⟩ := ih
    rw [Evaluate.filter, held, restOk]
    exact ⟨_, rfl⟩

theorem total_project {body : Members}
    (makes : ∀ document, ∃ made, Project.project document body = .ok made) :
    Total ⟨"$project", .obj body⟩ := by
  intro _ documents
  change ∃ results, Evaluate.projectAll body documents = .ok results
  induction documents with
  | nil => exact ⟨[], rfl⟩
  | cons document rest ih =>
    obtain ⟨made, projected⟩ := makes document
    obtain ⟨others, restOk⟩ := ih
    rw [Evaluate.projectAll, projected, restOk]
    exact ⟨_, rfl⟩

end Stage

/-- Stages that are total run, one after the other, on any documents. -/
theorem Evaluate.run_total {pipeline : Pipeline} (total : ∀ stage ∈ pipeline, stage.Total)
    (sorter : Sorter Json) (documents : List Json) :
    ∃ results, run sorter pipeline documents = .ok results := by
  induction pipeline generalizing documents with
  | nil => exact ⟨documents, rfl⟩
  | cons stage rest ih =>
    obtain ⟨next, applied⟩ := total stage (by simp) sorter documents
    obtain ⟨results, restOk⟩ := ih (fun later listed => total later (by simp [listed])) next
    refine ⟨results, ?_⟩
    rw [run, applied]
    exact restOk

/-! ## Pipelines whose sorts are determined -/

/-- If the stage sorts, its keys compare the documents naturally. -/
def Stage.Orders (stage : Stage) (documents : List Json) : Prop :=
  stage.operator = "$sort" →
    match stage.body with
    | .obj body => ∀ member ∈ body, Sort.Orderly documents member.1
    | _ => True

instance (documents : List Json) : (stage : Stage) → Decidable (stage.Orders documents)
  | ⟨operator, .obj body⟩ =>
    inferInstanceAs (Decidable (operator = "$sort" → ∀ member ∈ body, Sort.Orderly documents member.1))
  | ⟨_, .null⟩ | ⟨_, .bool _⟩ | ⟨_, .num _⟩ | ⟨_, .str _⟩ | ⟨_, .arr _⟩ => .isTrue fun _ => trivial

/-- Every sort of a pipeline meets documents that its keys compare naturally. -/
def Evaluate.Orderly (sorter : Sorter Json) : Pipeline → List Json → Prop
  | [], _ => True
  | stage :: rest, documents =>
    stage.Orders documents ∧
      match applyStage sorter stage documents with
      | .ok next => Orderly sorter rest next
      | .error _ => True

instance Evaluate.decidableOrderly (sorter : Sorter Json) :
    (pipeline : Pipeline) → (documents : List Json) → Decidable (Orderly sorter pipeline documents)
  | [], _ => .isTrue trivial
  | stage :: rest, documents =>
    have : Decidable (match applyStage sorter stage documents with
        | .ok next => Orderly sorter rest next
        | .error _ => True) :=
      match applyStage sorter stage documents with
      | .ok next => decidableOrderly sorter rest next
      | .error _ => .isTrue trivial
    inferInstanceAs (Decidable (_ ∧ _))

/-- On documents that its keys compare naturally, all sorters do the same with a body. -/
theorem Sort.sort_of_orderly (sorter other : Sorter Json) {documents : List Json} {body : Members}
    (orderly : ∀ member ∈ body, Orderly documents member.1) :
    sort sorter documents body = sort other documents body := by
  by_cases directions : ∀ member ∈ body, IsDirection member.2
  · obtain ⟨ks, rfl⟩ := entries_of_directions directions
    have each : ∀ key ∈ ks, Orderly documents key.path := fun key listed =>
      orderly key.entry (List.mem_map_of_mem listed)
    have same : sortBy sorter ks documents = sortBy other ks documents :=
      (stablySorted_sortBy sorter each).unique (stablySorted_sortBy other each)
    rw [sort, sort, keys_entries]
    exact congrArg Except.ok same
  · push Not at directions
    obtain ⟨path, direction, -, -, refused⟩ := keys_of_no_direction directions
    rw [sort, sort, refused]
    rfl

theorem Evaluate.applyStage_of_orders (sorter other : Sorter Json) {stage : Stage}
    {documents : List Json} (orders : stage.Orders documents) :
    applyStage sorter stage documents = applyStage other stage documents := by
  by_cases sorts : stage.operator = "$sort"
  · obtain ⟨operator, body⟩ := stage
    cases sorts
    cases body with
    | obj members => exact Sort.sort_of_orderly sorter other (orders rfl)
    | _ => rfl
  · simp only [applyStage, if_neg sorts]

/-- All sorters make the same of a pipeline whose sorts are determined. -/
theorem Evaluate.run_of_orderly {sorter : Sorter Json} (other : Sorter Json) {pipeline : Pipeline}
    {documents : List Json} (orderly : Orderly sorter pipeline documents) :
    run other pipeline documents = run sorter pipeline documents := by
  induction pipeline generalizing documents with
  | nil => rfl
  | cons stage rest ih =>
    obtain ⟨here, later⟩ := orderly
    rw [run, run, applyStage_of_orders other sorter here]
    cases applied : applyStage sorter stage documents with
    | error error => rfl
    | ok next =>
      rw [applied] at later
      exact ih later

/-! ## Compiled queries -/

/-- What a selection constructs has plain names and can be evaluated. -/
def Operation.Legible : Operation → Prop
  | .select projection =>
    (∀ members, projection = .construct members →
      ∀ member ∈ members, Sigil.isMarked member.1 = false) ∧ projection.selectable = true
  | _ => True

namespace Context

variable {context : Context}

theorem filterStage_total {predicate : Expr} {stage : Stage}
    (plain : context.scope.PlainPaths context.mapping predicate)
    (accepted : context.filterStage predicate = .ok stage) : stage.Total := by
  obtain ⟨c, resolved, rfl⟩ := filterStage_success accepted
  apply Stage.total_match
  intro document
  obtain ⟨answer, ran, -⟩ := Scope.run_answers document predicate c resolved plain
  exact ⟨answer, by rw [Condition.holds_document, ran]⟩

theorem selectStage_total {projection : Expr} {stage : Stage}
    (selectable : projection.selectable = true)
    (accepted : context.selectStage projection = .ok stage) : stage.Total := by
  obtain ⟨values, -, rfl⟩ := selectStage_success accepted
  apply Stage.total_project
  intro document
  have succeeds := project_isOk accepted document
  rw [selectable] at succeeds
  cases projected : Project.project document _ with
  | error error =>
    rw [projected] at succeeds
    cases succeeds
  | ok made => exact ⟨made, rfl⟩

theorem sortStage_total {key : Expr} {direction : Int} {stage : Stage}
    (known : direction = 1 ∨ direction = -1)
    (accepted : context.sortStage key direction = .ok stage) : stage.Total := by
  obtain ⟨path, -, accepted⟩ := bind_success accepted
  cases accepted
  intro sorter documents
  rcases known with rfl | rfl <;> exact ⟨_, rfl⟩

theorem countStage_total {operator : String} {kind : OperationKind} {e : Expr} {stage : Stage}
    (known : operator = "$skip" ∨ operator = "$limit")
    (accepted : countStage operator kind e = .ok stage) : stage.Total := by
  obtain ⟨n, -, accepted⟩ := bind_success accepted
  cases accepted
  intro _ documents
  have counted : Evaluate.bodyCount ⟨operator, .num (.int n)⟩ = .ok n := by
    simp [Evaluate.bodyCount, Json.int?]
  rcases known with rfl | rfl
  · refine ⟨documents.drop n, ?_⟩
    change (return documents.drop (← Evaluate.bodyCount ⟨"$skip", .num (.int n)⟩)) = Except.ok _
    rw [counted]
    rfl
  · refine ⟨documents.take n, ?_⟩
    change (return documents.take (← Evaluate.bodyCount ⟨"$limit", .num (.int n)⟩)) = Except.ok _
    rw [counted]
    rfl

/-- The stage of a legible operation among plain documents is total. -/
theorem stage_total {rules : RuleSet} {operation : Operation} {stage : Stage}
    (stored : context.mapping.Plain) (plain : context.scope.root.Plain)
    (legible : operation.Legible) (accepted : context.stage rules operation = .ok stage) :
    stage.Total := by
  have own := stage_success accepted
  cases operation with
  | filter predicate =>
    exact filterStage_total (Scope.plainPaths_of_plain stored plain predicate) own
  | select projection => exact selectStage_total legible.2 own
  | orderBy key => exact sortStage_total (.inl rfl) own
  | orderByDescending key => exact sortStage_total (.inr rfl) own
  | skip e => exact countStage_total (.inl rfl) own
  | take e => exact countStage_total (.inr rfl) own

end Context

namespace Compiler

variable {compiler : Compiler}

/-- The documents behind a legible operation among plain documents are plain. -/
theorem plain_of_scopeAfter {scope next : Scope} {operation : Operation}
    (stored : compiler.mapping.Plain) (plain : scope.root.Plain) (legible : operation.Legible)
    (reached : compiler.scopeAfter scope operation = .ok next) : next.root.Plain := by
  cases operation with
  | select projection => exact Scope.plain_of_project stored plain legible.1 reached
  | _ =>
    cases reached
    exact plain

/-- All stages are total; the induction carries along that documents are plain. -/
theorem compileFrom_total {position : Nat} {scope : Scope} {operations : List Operation}
    {query : CompiledQuery} (stored : compiler.mapping.Plain) (plain : scope.root.Plain)
    (legible : ∀ operation ∈ operations, operation.Legible)
    (compiled : compiler.compileFrom position scope operations = .ok query) :
    ∀ stage ∈ query.pipeline, stage.Total := by
  induction operations generalizing position scope query with
  | nil =>
    cases compiled
    simp
  | cons operation rest ih =>
    obtain ⟨stage, next, others, staged, reached, tail, rfl⟩ := compileFrom_cons_success compiled
    have here := legible operation List.mem_cons_self
    have total : stage.Total := Context.stage_total stored plain here staged
    have behind := plain_of_scopeAfter stored plain here reached
    intro other listed
    rcases List.mem_cons.mp listed with rfl | listed
    · exact total
    · exact ih behind (fun later member => legible later (List.mem_cons_of_mem _ member)) tail
        other listed

end Compiler

/-- No store refuses a compiled query if stored names are plain and operations legible. If its
sorts meet documents that they order, it has the same documents for result with all sorters. -/
theorem compile_runs (compiler : Compiler) (entityType : String) (operations : List Operation)
    (query : CompiledQuery) (stored : compiler.mapping.Plain)
    (legible : ∀ operation ∈ operations, operation.Legible)
    (compiled : compiler.compile entityType operations = .ok query) (store : Store) :
    (∀ sorter error, store.evaluate sorter query.pipeline ≠ .error error) ∧
      ∀ sorter, Evaluate.Orderly sorter query.pipeline store.documents →
        ∃ documents, ∀ other, store.evaluate other query.pipeline = .ok documents := by
  have plain : (Scope.entity entityType).root.Plain := trivial
  have total := Compiler.compileFrom_total stored plain legible compiled
  constructor
  · intro sorter error refused
    obtain ⟨documents, ran⟩ := Evaluate.run_total total sorter store.documents
    cases ran.symm.trans refused
  · intro sorter orderly
    obtain ⟨documents, ran⟩ := Evaluate.run_total total sorter store.documents
    exact ⟨documents, fun other => (Evaluate.run_of_orderly other orderly).trans ran⟩

/-- The first of the adults by city, with two marked names side by side. -/
def firstByCity : List Operation :=
  [.filter adultsSomewhere,
    .select (.construct [("Who", .field "Id"),
      ("Place", .construct [("$city", .field "Address.City"), ("$note", .constant (.string "$x"))])]),
    .orderBy (.access ["Place", "$city"]),
    .filter (.compare .ne (.access ["Place", "$city"]) (.constant .null)),
    .take (.constant (.int 1))]

theorem compile_runs_firstByCity :
    people.Plain ∧ (∀ operation ∈ firstByCity, operation.Legible) ∧
      ∃ query, Compiler.compile ⟨RuleSet.standard, people, {}⟩ "User" firstByCity = .ok query ∧
        Evaluate.Orderly .insertion query.pipeline [commuter] ∧
        ∃ documents, ∀ sorter,
          Store.evaluate { documents := [commuter] } sorter query.pipeline = .ok documents := by
  have legible : ∀ operation ∈ firstByCity, operation.Legible := by
    intro operation listed
    simp only [firstByCity, List.mem_cons, List.not_mem_nil, or_false] at listed
    rcases listed with rfl | rfl | rfl | rfl | rfl
    · trivial
    · refine ⟨?_, rfl⟩
      rintro members ⟨⟩
      decide
    · trivial
    · trivial
    · trivial
  have compiles : ∃ query,
      Compiler.compile ⟨RuleSet.standard, people, {}⟩ "User" firstByCity = .ok query ∧
        Evaluate.Orderly .insertion query.pipeline [commuter] := by
    refine ⟨_, rfl, ?_⟩
    decide +kernel
  obtain ⟨query, compiled, orderly⟩ := compiles
  exact ⟨people_plain, legible, query, compiled, orderly,
    (compile_runs _ "User" firstByCity query people_plain legible compiled _).2 .insertion orderly⟩

/-- A marked name alone in a nested construction is taken for an operator, and a marked name
behind a selection for a connective. -/
theorem compile_runs_marked_names :
    let compiler : Compiler := ⟨RuleSet.standard, people, {}⟩
    let store : Store := { documents := [commuter] }
    let nested : Pipeline := [⟨"$project",
      .obj [("Card", .obj [("$name", .str "$_id")]), ("_id", .num (.int 0))]⟩]
    let filtered : Pipeline := [⟨"$project",
        .obj [("$name", .str "$_id"), ("_id", .num (.int 0))]⟩,
      ⟨"$match", .obj [("$name", .obj [("$eq", .str "p1")])]⟩]
    people.Plain ∧
      compiler.compile "User" [.select (.construct [("Card", .construct [("$name", .field "Id")])])] =
        .ok ⟨nested, .projection (.document [("Card", .document [("$name", .scalar)])])⟩ ∧
      store.evaluate .insertion nested = .error (.malformedStage "$project" (.notAnArray "$name")) ∧
      compiler.compile "User" [.select (.construct [("$name", .field "Id")]),
          .filter (.compare .eq (.access ["$name"]) (.constant (.string "p1")))] =
        .ok ⟨filtered, .projection (.document [("$name", .scalar)])⟩ ∧
      store.evaluate .insertion filtered = .error (.malformedStage "$match" (.unknownConnective "$name")) := by
  intro compiler store nested filtered
  exact ⟨people_plain, rfl, rfl, rfl, rfl⟩

end DocQuery
