import DocQuery.Collection.Sort
import DocQuery.Proofs.Collection.StableSort
import DocQuery.Proofs.Document.NaturalOrder

/-!
# Sorting documents by keys

A body of `$sort` orders documents by the first of its keys that tells them apart, and
keeps the order of documents that none does. `sort_stable` says so for documents whose keys
are compared naturally; a direction that is neither 1 nor -1 is refused before any document
is moved.
-/
namespace DocQuery.Sort

namespace Key

/-- The entry of a body for a key. -/
def entry (key : Key) : String × Json :=
  (key.path, .num (.int (if key.descending then -1 else 1)))

/-- Where a document stands by a key. -/
def standing (key : Key) (document : Json) : ℕ ×ₗ ℚ ×ₗ String :=
  Json.standing (document.lookup key.path)

/-- A key puts a document before another one; a descending key the greater one. -/
def Before (key : Key) (a b : Json) : Prop :=
  if key.descending then key.standing b < key.standing a else key.standing a < key.standing b

end Key

/-- No key tells the documents apart. -/
def Ties (keys : List Key) (a b : Json) : Prop :=
  ∀ key ∈ keys, key.standing a = key.standing b

instance (keys : List Key) (a b : Json) : Decidable (Ties keys a b) :=
  inferInstanceAs (Decidable (∀ key ∈ keys, _))

/-- The first key that tells the documents apart puts the first one before the second. -/
inductive Precedes : List Key → Json → Json → Prop where
  | first {key : Key} {rest : List Key} {a b : Json} (before : key.Before a b) :
      Precedes (key :: rest) a b
  | later {key : Key} {rest : List Key} {a b : Json} (tied : key.standing a = key.standing b)
      (below : Precedes rest a b) : Precedes (key :: rest) a b

/-- The numbers that documents have at a path. -/
def numbersAt (documents : List Json) (path : String) : List Number :=
  documents.filterMap fun document =>
    match document.lookup path with
    | some (.num a) => some a
    | _ => none

/-- The tags of the extended values that documents have at a path. -/
def tagsAt (documents : List Json) (path : String) : List String :=
  documents.filterMap fun document =>
    ((document.lookup path).bind Json.extended?).map Prod.fst

/-- What documents have at a path is compared naturally: their numbers are all signed words,
or all binary64 numbers, and their extended values all carry one tag. -/
structure Orderly (documents : List Json) (path : String) : Prop where
  numbers : (∀ a ∈ numbersAt documents path, a.signed?.isSome) ∨
    ∀ a ∈ numbersAt documents path, a.IsDouble
  tags : ∀ tag ∈ tagsAt documents path, ∀ other ∈ tagsAt documents path, tag = other

instance (documents : List Json) (path : String) : Decidable (Orderly documents path) :=
  decidable_of_iff (_ ∧ _)
    ⟨fun both => ⟨both.1, both.2⟩, fun orderly => ⟨orderly.numbers, orderly.tags⟩⟩

/-! ## The natural comparison -/

namespace Key

/-- The comparison of two documents by where they stand. -/
def natural (key : Key) : Json → Json → Ordering :=
  if key.descending then fun a b => compareOn key.standing b a else compareOn key.standing

instance (key : Key) : Std.TransCmp key.natural := by
  unfold natural
  split <;> infer_instance

theorem natural_eq_iff (key : Key) (a b : Json) :
    key.natural a b = .eq ↔ key.standing a = key.standing b := by
  unfold natural compareOn
  split
  · rw [compare_eq_iff_eq, eq_comm]
  · rw [compare_eq_iff_eq]

theorem natural_lt_iff (key : Key) (a b : Json) : key.natural a b = .lt ↔ key.Before a b := by
  unfold natural compareOn Before
  split <;> rw [compare_lt_iff_lt]

end Key

/-- The natural comparison by several keys. -/
def naturalAll (keys : List Key) : Json → Json → Ordering :=
  keys.foldr (fun key rest => compareLex key.natural rest) fun _ _ => .eq

instance (keys : List Key) : Std.TransCmp (naturalAll keys) := by
  induction keys with
  | nil => exact { eq_swap := rfl, isLE_trans := fun _ _ => rfl }
  | cons key rest ih =>
    have head : naturalAll (key :: rest) = compareLex key.natural (naturalAll rest) := rfl
    rw [head]
    infer_instance

theorem naturalAll_eq_iff (keys : List Key) (a b : Json) :
    naturalAll keys a b = .eq ↔ Ties keys a b := by
  induction keys with
  | nil => simp [naturalAll, Ties]
  | cons key rest ih =>
    have head : naturalAll (key :: rest) a b = (key.natural a b).then (naturalAll rest a b) := rfl
    rw [head, Ordering.then_eq_eq, ih, Key.natural_eq_iff, Ties, Ties, List.forall_mem_cons]

theorem naturalAll_lt_iff (keys : List Key) (a b : Json) :
    naturalAll keys a b = .lt ↔ Precedes keys a b := by
  induction keys with
  | nil => exact ⟨nofun, nofun⟩
  | cons key rest ih =>
    have head : naturalAll (key :: rest) a b = (key.natural a b).then (naturalAll rest a b) := rfl
    rw [head, Ordering.then_eq_lt, ih, Key.natural_eq_iff, Key.natural_lt_iff]
    constructor
    · rintro (before | ⟨tied, below⟩)
      · exact .first before
      · exact .later tied below
    · rintro (before | ⟨tied, below⟩)
      · exact .inl before
      · exact .inr ⟨tied, below⟩

theorem naturalAll_gt_iff (keys : List Key) (a b : Json) :
    naturalAll keys a b = .gt ↔ Precedes keys b a := by
  rw [← naturalAll_lt_iff, Std.OrientedCmp.gt_iff_lt]

/-! ## Sorting by keys -/

theorem mem_numbersAt {documents : List Json} {document : Json} {path : String} {a : Number}
    (listed : document ∈ documents) (found : document.lookup path = some (.num a)) :
    a ∈ numbersAt documents path :=
  List.mem_filterMap.mpr ⟨document, listed, by rw [found]⟩

theorem mem_tagsAt {documents : List Json} {document : Json} {path tag text : String}
    (listed : document ∈ documents)
    (found : (document.lookup path).bind Json.extended? = some (tag, text)) :
    tag ∈ tagsAt documents path :=
  List.mem_filterMap.mpr ⟨document, listed, by rw [found]; rfl⟩

theorem Orderly.commensurable {documents : List Json} {path : String}
    (orderly : Orderly documents path) {a b : Json} (first : a ∈ documents) (second : b ∈ documents) :
    Json.Commensurable (a.lookup path) (b.lookup path) := by
  constructor
  · intro x y foundX foundY
    have inX := mem_numbersAt first foundX
    have inY := mem_numbersAt second foundY
    rcases orderly.numbers with signed | doubles
    · exact .inl ⟨signed x inX, signed y inY⟩
    · exact .inr ⟨doubles x inX, doubles y inY⟩
  · intro tag x other y foundX foundY
    exact orderly.tags tag (mem_tagsAt first foundX) other (mem_tagsAt second foundY)

theorem compareBy_eq_natural {key : Key} {a b : Json}
    (fit : Json.Commensurable (a.lookup key.path) (b.lookup key.path)) :
    compareBy key a b = key.natural a b := by
  have order := Json.compareForSort_eq_standing fit
  unfold compareBy Key.natural compareOn Key.standing
  cases key.descending with
  | false => exact order
  | true =>
    simp only [order, if_true]
    exact Std.OrientedOrd.eq_swap.symm

theorem compareByAll_eq_natural {keys : List Key} {a b : Json}
    (fit : ∀ key ∈ keys, Json.Commensurable (a.lookup key.path) (b.lookup key.path)) :
    compareByAll keys a b = naturalAll keys a b := by
  induction keys with
  | nil => rfl
  | cons key rest ih =>
    rw [List.forall_mem_cons] at fit
    rw [compareByAll, compareBy_eq_natural fit.1, ih fit.2]
    rfl

/-- Documents that are compared naturally are sorted stably, whatever the sorter. -/
theorem stablySorted_sortBy (sorter : Sorter Json) {keys : List Key} {documents : List Json}
    (orderly : ∀ key ∈ keys, Orderly documents key.path) :
    StablySorted (naturalAll keys) documents (sortBy sorter keys documents) := by
  apply sorter.stable
  intro a first b second
  exact compareByAll_eq_natural fun key listed => (orderly key listed).commensurable first second

/-! ## Bodies -/

/-- The directions: 1 ascends and -1 descends. -/
def IsDirection (direction : Json) : Prop :=
  direction = .num (.int 1) ∨ direction = .num (.int (-1))

/-- A member with a direction is the entry of a key. -/
theorem IsDirection.entry {direction : Json} (good : IsDirection direction) (path : String) :
    ∃ key : Key, (path, direction) = key.entry := by
  rcases good with rfl | rfl
  · exact ⟨⟨path, false⟩, rfl⟩
  · exact ⟨⟨path, true⟩, rfl⟩

theorem keys_cons_entry (key : Key) (rest : Members) :
    keys (key.entry :: rest) = (keys rest).map (key :: ·) := by
  obtain ⟨path, descending⟩ := key
  cases descending <;> simp only [Key.entry, keys] <;> cases keys rest <;> rfl

theorem keys_entries (ks : List Key) : keys (ks.map Key.entry) = .ok ks := by
  induction ks with
  | nil => rfl
  | cons key rest ih =>
    rw [List.map_cons, keys_cons_entry, ih]
    rfl

theorem entries_of_directions {body : Members}
    (directions : ∀ member ∈ body, IsDirection member.2) :
    ∃ ks : List Key, body = ks.map Key.entry := by
  induction body with
  | nil => exact ⟨[], rfl⟩
  | cons member rest ih =>
    rw [List.forall_mem_cons] at directions
    obtain ⟨key, first⟩ := directions.1.entry member.1
    obtain ⟨ks, others⟩ := ih directions.2
    exact ⟨key :: ks, by rw [List.map_cons, ← first, ← others]⟩

theorem keys_cons_of_no_direction {path : String} {direction : Json} (rest : Members)
    (bad : ¬ IsDirection direction) :
    keys ((path, direction) :: rest) =
      .error (.malformedStage "$sort" (.direction path direction)) := by
  unfold keys
  split
  · exact absurd (.inl rfl) bad
  · exact absurd (.inr rfl) bad
  · rfl

/-- The first direction that is none is refused. -/
theorem keys_of_no_direction {body : Members}
    (bad : ∃ member ∈ body, ¬ IsDirection member.2) :
    ∃ path direction, (path, direction) ∈ body ∧ ¬ IsDirection direction ∧
      keys body = .error (.malformedStage "$sort" (.direction path direction)) := by
  induction body with
  | nil => simp at bad
  | cons member rest ih =>
    obtain ⟨path, direction⟩ := member
    by_cases good : IsDirection direction
    · have later : ∃ member ∈ rest, ¬ IsDirection member.2 := by
        obtain ⟨member, listed, none⟩ := bad
        rcases List.mem_cons.mp listed with rfl | listed
        · exact absurd good none
        · exact ⟨member, listed, none⟩
      obtain ⟨other, given, listed, none, refused⟩ := ih later
      obtain ⟨key, first⟩ := good.entry path
      refine ⟨other, given, List.mem_cons_of_mem _ listed, none, ?_⟩
      rw [first, keys_cons_entry, refused]
      rfl
    · exact ⟨path, direction, List.mem_cons_self, good, keys_cons_of_no_direction rest good⟩

/-! ## The sorted documents -/

/-- The documents in the order of the keys, documents that tie in their old order. -/
structure Sorts (keys : List Key) (documents sorted : List Json) : Prop where
  perm : sorted.Perm documents
  ordered : sorted.Pairwise fun a b => ¬ Precedes keys b a
  stable : ∀ document, sorted.filter (Ties keys document ·) = documents.filter (Ties keys document ·)

theorem sorts_iff (keys : List Key) (documents sorted : List Json) :
    Sorts keys documents sorted ↔ StablySorted (naturalAll keys) documents sorted := by
  have order (a b : Json) : naturalAll keys a b ≠ .gt ↔ ¬ Precedes keys b a :=
    (naturalAll_gt_iff keys a b).not
  have ties (a : Json) : (fun b => decide (Ties keys a b)) = fun b => naturalAll keys a b == .eq := by
    funext b
    rw [Bool.eq_iff_iff, decide_eq_true_iff, beq_iff_eq, naturalAll_eq_iff]
  constructor
  · rintro ⟨perm, ordered, stable⟩
    refine ⟨perm, ordered.imp fun {a b} => (order a b).mpr, fun a => ?_⟩
    rw [← ties a]
    exact stable a
  · rintro ⟨perm, ordered, stable⟩
    refine ⟨perm, ordered.imp fun {a b} => (order a b).mp, fun a => ?_⟩
    rw [ties a]
    exact stable a

/-- Sorting a list where it stands: the keys are read before any document is moved. -/
def sortInPlace (sorter : Sorter Json) (body : Members) :
    ExceptT ExecutionError (StateM (List Json)) Unit := do
  let ks ← ExceptT.mk (pure (keys body))
  modify (sortBy sorter ks)

theorem run_sortInPlace (sorter : Sorter Json) (body : Members) (documents : List Json) :
    (sortInPlace sorter body).run.run documents =
      match sort sorter documents body with
      | .ok sorted => (.ok (), sorted)
      | .error error => (.error error, documents) := by
  unfold sortInPlace sort
  cases keys body <;> rfl

/-- Sorting is stable and lexicographic: the documents come in the order of the first key
that tells them apart, as `Json.standing` has it and the other way round for a descending
key, and documents that no key tells apart stay as they were. A direction other than 1 and -1
is refused, and no document is moved. -/
theorem sort_stable (sorter : Sorter Json) (documents : List Json) (body : Members) :
    ((∀ member ∈ body, IsDirection member.2) →
      (∀ member ∈ body, Orderly documents member.1) →
      ∃ ks sorted, body = ks.map Key.entry ∧ sort sorter documents body = .ok sorted ∧
        (sortInPlace sorter body).run.run documents = (.ok (), sorted) ∧ Sorts ks documents sorted) ∧
    ((∃ member ∈ body, ¬ IsDirection member.2) →
      ∃ path direction, (path, direction) ∈ body ∧ ¬ IsDirection direction ∧
        sort sorter documents body = .error (.malformedStage "$sort" (.direction path direction)) ∧
        (sortInPlace sorter body).run.run documents =
          (.error (.malformedStage "$sort" (.direction path direction)), documents)) := by
  constructor
  · intro directions orderly
    obtain ⟨ks, rfl⟩ := entries_of_directions directions
    have sorted : sort sorter documents (ks.map Key.entry) = .ok (sortBy sorter ks documents) := by
      rw [sort, keys_entries]
      rfl
    refine ⟨ks, sortBy sorter ks documents, rfl, sorted, ?_, ?_⟩
    · rw [run_sortInPlace, sorted]
    · rw [sorts_iff]
      apply stablySorted_sortBy
      intro key listed
      exact orderly key.entry (List.mem_map_of_mem listed)
  · intro bad
    obtain ⟨path, direction, listed, none, refused⟩ := keys_of_no_direction bad
    have failed : sort sorter documents body =
        .error (.malformedStage "$sort" (.direction path direction)) := by
      rw [sort, refused]
      rfl
    refine ⟨path, direction, listed, none, failed, ?_⟩
    rw [run_sortInPlace, failed]

/-- Scores in descending order, then names; two documents tie in both. -/
def ranking : List Json :=
  [.obj [("score", .num (.int 1)), ("name", .str "b"), ("seen", .bool false)],
   .obj [("name", .str "a")],
   .obj [("score", .num (.int 7)), ("name", .str "c")],
   .obj [("score", .num (.float (.ofInt 1))), ("name", .str "b"), ("seen", .bool true)],
   .obj [("score", .num (.int 1)), ("name", .null)]]

theorem sort_stable_ranking :
    (∃ ks sorted, sort .insertion ranking [("score", .num (.int (-1))), ("name", .num (.int 1))] = .ok sorted ∧
      Sorts ks ranking sorted) ∧
    ∃ path direction, sort .insertion ranking [("score", .num (.int 1)), ("name", .bool true)] =
      .error (.malformedStage "$sort" (.direction path direction)) := by
  constructor
  · have scores : Orderly ranking "score" := by decide +kernel
    have names : Orderly ranking "name" := by decide +kernel
    obtain ⟨ks, sorted, -, done, -, sorts⟩ :=
      (sort_stable .insertion ranking [("score", .num (.int (-1))), ("name", .num (.int 1))]).1
        (by simp [IsDirection]) (by simp [scores, names])
    exact ⟨ks, sorted, done, sorts⟩
  · obtain ⟨path, direction, -, -, failed, -⟩ :=
      (sort_stable .insertion ranking [("score", .num (.int 1)), ("name", .bool true)]).2
        ⟨("name", .bool true), by simp, by simp [IsDirection]⟩
    exact ⟨path, direction, failed⟩

end DocQuery.Sort
