import DocQuery.Collection.Store
import DocQuery.Compile.Build
import DocQuery.Proofs.Collection.Sorting

/-!
# Chained orders

Every order of a chain becomes a `$sort` stage of its own, with one key. The stages compose:
a later one decides first, and documents that it does not tell apart stay as the earlier ones
left them. So the stages together sort as one stage with the keys from the last order to the
first (`orders_compose`).
-/
namespace DocQuery.Sort

/-! ## Sorting again -/

theorem Orderly.of_perm {documents others : List Json} {path : String}
    (orderly : Orderly documents path) (perm : others.Perm documents) : Orderly others path := by
  have numbers : (numbersAt others path).Perm (numbersAt documents path) := perm.filterMap _
  have tags : (tagsAt others path).Perm (tagsAt documents path) := perm.filterMap _
  constructor
  · rcases orderly.numbers with signed | doubles
    · exact .inl fun a listed => signed a (numbers.mem_iff.mp listed)
    · exact .inr fun a listed => doubles a (numbers.mem_iff.mp listed)
  · intro tag first other second
    exact orderly.tags tag (tags.mem_iff.mp first) other (tags.mem_iff.mp second)

section

variable (sorter : Sorter Json)

theorem sortBy_perm (ks : List Key) (documents : List Json) :
    (sortBy sorter ks documents).Perm documents :=
  sorter.perm _ documents

theorem sortBy_nil (documents : List Json) : sortBy sorter [] documents = documents := by
  have sorted : StablySorted (naturalAll []) documents (sortBy sorter [] documents) :=
    stablySorted_sortBy sorter (by simp)
  have still : StablySorted (naturalAll []) documents documents :=
    ⟨List.Perm.refl documents, List.pairwise_of_forall fun _ _ => nofun, fun _ => rfl⟩
  exact sorted.unique still

/-- Sorting by one more key puts this key before the others. -/
theorem sortBy_sortBy {key : Key} {ks : List Key} {documents : List Json}
    (orderly : ∀ k ∈ key :: ks, Orderly documents k.path) :
    sortBy sorter [key] (sortBy sorter ks documents) = sortBy sorter (key :: ks) documents := by
  have perm := sortBy_perm sorter ks documents
  rw [List.forall_mem_cons] at orderly
  have first : StablySorted (naturalAll ks) documents (sortBy sorter ks documents) :=
    stablySorted_sortBy sorter orderly.2
  have second : StablySorted (naturalAll [key]) (sortBy sorter ks documents)
      (sortBy sorter [key] (sortBy sorter ks documents)) :=
    stablySorted_sortBy sorter (by simpa using orderly.1.of_perm perm)
  have together : naturalAll (key :: ks) = compareLex (naturalAll [key]) (naturalAll ks) := by
    funext a b
    simp [naturalAll, compareLex, Ordering.then_eq]
  have whole : StablySorted (naturalAll (key :: ks)) documents (sortBy sorter (key :: ks) documents) :=
    stablySorted_sortBy sorter (List.forall_mem_cons.mpr orderly)
  rw [together] at whole
  exact (first.then second).unique whole

/-- Sorting by key after key is sorting by all keys, the last one first. -/
theorem foldl_sortBy {documents : List Json} (ks : List Key) {done : List Key}
    (orderly : ∀ key ∈ ks.reverse ++ done, Orderly documents key.path) :
    ks.foldl (fun documents key => sortBy sorter [key] documents) (sortBy sorter done documents) =
      sortBy sorter (ks.reverse ++ done) documents := by
  induction ks generalizing done with
  | nil => rfl
  | cons key rest ih =>
    rw [List.reverse_cons, List.append_assoc] at orderly ⊢
    have now : ∀ k ∈ key :: done, Orderly documents k.path := fun k listed =>
      orderly k (List.mem_append_right _ listed)
    rw [List.foldl_cons, sortBy_sortBy sorter now]
    exact ih orderly

/-! ## Stages of orders -/

/-- The stage of one key. -/
def Key.stage (key : Key) : Stage :=
  ⟨"$sort", .obj [key.entry]⟩

theorem applyStage_sort (ks : List Key) (documents : List Json) :
    Evaluate.applyStage sorter ⟨"$sort", .obj (ks.map Key.entry)⟩ documents =
      .ok (sortBy sorter ks documents) := by
  change sort sorter documents (ks.map Key.entry) = _
  rw [sort, keys_entries]
  rfl

theorem run_stages (ks : List Key) (documents : List Json) :
    Evaluate.run sorter (ks.map Key.stage) documents =
      .ok (ks.foldl (fun documents key => sortBy sorter [key] documents) documents) := by
  induction ks generalizing documents with
  | nil => rfl
  | cons key rest ih =>
    have one : Evaluate.applyStage sorter key.stage documents = .ok (sortBy sorter [key] documents) :=
      applyStage_sort sorter [key] documents
    rw [List.map_cons, Evaluate.run, one]
    exact ih (sortBy sorter [key] documents)

end

/-- An operation orders documents by a key, the field that its expression denotes. -/
inductive Orders (mapping : FieldMapping) (scope : Scope) : Operation → Key → Prop where
  | ascending {e : Expr} {field : ResolvedField}
      (resolved : scope.resolveExpr mapping e = .ok field) :
      Orders mapping scope (.orderBy e) ⟨field.path, false⟩
  | descending {e : Expr} {field : ResolvedField}
      (resolved : scope.resolveExpr mapping e = .ok field) :
      Orders mapping scope (.orderByDescending e) ⟨field.path, true⟩

theorem sortStage_of_resolved {context : Context} {e : Expr} {field : ResolvedField}
    (resolved : context.scope.resolveExpr context.mapping e = .ok field) (direction : Int) :
    context.sortStage e direction =
      .ok ⟨"$sort", .obj [(field.path, .num (.int direction))]⟩ := by
  cases e with
  | member target name =>
    simp only [Context.sortStage, Context.sortKey, resolved]
    rfl
  | _ => cases resolved

section

variable {compiler : Compiler} {scope : Scope}

theorem lower_of_orders {operation : Operation} {key : Key}
    (registered : ∀ kind ∈ Rule.orderBy.kinds, compiler.rules kind = some .orderBy)
    (orders : Orders compiler.mapping scope operation key) :
    compiler.lower scope operation = .ok (key.stage, scope) := by
  let context : Context := ⟨compiler.mapping, scope, compiler.config⟩
  have staged : context.stage compiler.rules operation = .ok key.stage := by
    cases orders with
    | ascending resolved =>
      have rule : compiler.rules .orderBy = some .orderBy := registered _ (by simp [Rule.kinds])
      simp only [Context.stage, Operation.kind, rule]
      exact sortStage_of_resolved resolved 1
    | descending resolved =>
      have rule : compiler.rules .orderByDescending = some .orderBy :=
        registered _ (by simp [Rule.kinds])
      simp only [Context.stage, Operation.kind, rule]
      exact sortStage_of_resolved resolved (-1)
  have stays : compiler.scopeAfter scope operation = .ok scope := by
    cases orders <;> rfl
  change (context.stage compiler.rules operation >>= _) = _
  rw [staged]
  change (compiler.scopeAfter scope operation >>= _) = _
  rw [stays]
  rfl

theorem compileFrom_of_orders {operations : List Operation} {ks : List Key}
    (registered : ∀ kind ∈ Rule.orderBy.kinds, compiler.rules kind = some .orderBy)
    (orders : List.Forall₂ (Orders compiler.mapping scope) operations ks) (position : Nat) :
    compiler.compileFrom position scope operations = .ok ⟨ks.map Key.stage, scope⟩ := by
  induction orders generalizing position with
  | nil => rfl
  | cons first _ ih =>
    simp only [Compiler.compileFrom, lower_of_orders registered first, ih, List.map_cons]

end

/-- Chained orders compose: each is compiled to a stage of its own, whatever stands before
them in the chain, and the stages give the documents as one stage does that has the keys
from the last order to the first. -/
theorem orders_compose (sorter : Sorter Json) (compiler : Compiler) (position : Nat) (scope : Scope) (store : Store)
    (operations : List Operation) (ks : List Key)
    (registered : ∀ kind ∈ Rule.orderBy.kinds, compiler.rules kind = some .orderBy)
    (orders : List.Forall₂ (Orders compiler.mapping scope) operations ks)
    (distinct : (ks.map Key.path).Nodup)
    (orderly : ∀ key ∈ ks, Orderly store.documents key.path) :
    compiler.compileFrom position scope operations = .ok ⟨ks.map Key.stage, scope⟩ ∧
      ∃ sorted, store.evaluate sorter (ks.map Key.stage) = .ok sorted ∧
        store.evaluate sorter [⟨"$sort", .obj (Assoc.ofList (ks.reverse.map Key.entry))⟩] =
          .ok sorted := by
  refine ⟨compileFrom_of_orders registered orders position, sortBy sorter ks.reverse store.documents,
    ?_, ?_⟩
  · have allOrderly : ∀ key ∈ ks.reverse ++ [], Orderly store.documents key.path := by
      simpa using orderly
    have folded := foldl_sortBy sorter ks allOrderly
    rw [sortBy_nil, List.append_nil] at folded
    rw [Store.evaluate, run_stages, folded]
  · have paths : (ks.reverse.map Key.entry).map Prod.fst = (ks.map Key.path).reverse := by
      rw [List.map_map, List.map_reverse]
      rfl
    have entries : Assoc.Distinct (ks.reverse.map Key.entry) := by
      rw [Assoc.Distinct, Assoc.keys, paths, List.nodup_reverse]
      exact distinct
    rw [Assoc.ofList_of_distinct entries, Store.evaluate, Evaluate.run, applyStage_sort]
    rfl

/-- Players have a score and a name. -/
def players : FieldMapping :=
  MappingRegistry.resolve ⟨[("Player", [("Score", { elementName := some "score" }),
    ("Name", { elementName := some "name" })])]⟩

/-- Players by name, and then by falling score. -/
theorem orders_compose_players :
    let orders := [Operation.orderBy (.field "Name"), .orderByDescending (.field "Score")]
    let ks := [Key.mk "name" false, ⟨"score", true⟩]
    Compiler.compile ⟨.standard, players, {}⟩ "Player" orders =
        .ok ⟨ks.map Key.stage, .entity "Player"⟩ ∧
      ∃ sorted, Store.evaluate { documents := ranking } .insertion (ks.map Key.stage) = .ok sorted ∧
        Store.evaluate { documents := ranking } .insertion
          [⟨"$sort", .obj [("score", .num (.int (-1))), ("name", .num (.int 1))]⟩] = .ok sorted := by
  have names : Orderly ranking "name" := by decide +kernel
  have scores : Orderly ranking "score" := by decide +kernel
  have name : Scope.resolveExpr players (.entity "Player") (.field "Name") =
    .ok ⟨"name", .scalar⟩ := rfl
  have score : Scope.resolveExpr players (.entity "Player") (.field "Score") =
    .ok ⟨"score", .scalar⟩ := rfl
  exact orders_compose .insertion ⟨.standard, players, {}⟩ 0 (.entity "Player") { documents := ranking }
    [.orderBy (.field "Name"), .orderByDescending (.field "Score")] [⟨"name", false⟩, ⟨"score", true⟩]
    (by decide) (.cons (.ascending name) (.cons (.descending score) .nil)) (by decide)
    (by simp [names, scores])

end DocQuery.Sort
