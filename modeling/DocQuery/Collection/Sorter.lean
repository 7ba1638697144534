/-!
# Sorters

What is relied on of the sort of the standard library. Where the comparison is a total order of
the items, some of which may tie, the items come in its order and tied ones stay as they were.
By any other comparison the items are rearranged in an order that is not specified, and the sort
may as well not return and end the program; what is said with a sorter is said of programs in
which it returns.

Short lists are sorted by insertion, whatever the comparison (`Sorter.insertion`).
-/
namespace DocQuery

variable {α : Type}

/-- The items of a list in the order of a comparison, tied items in their old order. -/
structure StablySorted (order : α → α → Ordering) (input output : List α) : Prop where
  perm : output.Perm input
  sorted : output.Pairwise fun a b => order a b ≠ .gt
  stable : ∀ a, output.filter (order a · == .eq) = input.filter (order a · == .eq)

theorem StablySorted.ne_gt_trans {order : α → α → Ordering} [Std.TransCmp order] {a b c : α}
    (first : order a b ≠ .gt) (second : order b c ≠ .gt) : order a c ≠ .gt :=
  Ordering.isLE_iff_ne_gt.mp
    (Std.TransCmp.isLE_trans (Ordering.isLE_iff_ne_gt.mpr first) (Ordering.isLE_iff_ne_gt.mpr second))

/-- A stable sort. -/
structure Sorter (α : Type) where
  sort : (α → α → Ordering) → List α → List α
  perm : ∀ compare items, (sort compare items).Perm items
  stable : ∀ (order : α → α → Ordering) [Std.TransCmp order] compare items,
    (∀ a ∈ items, ∀ b ∈ items, compare a b = order a b) →
      StablySorted order items (sort compare items)

/-! ## Insertion -/

namespace Sorter

/-- Inserts an item into a list that is held from its end: before the items that are greater. -/
def insertBack (compare : α → α → Ordering) (a : α) : List α → List α
  | [] => [a]
  | b :: rest => if compare a b = .lt then b :: insertBack compare a rest else a :: b :: rest

theorem insertBack_perm (compare : α → α → Ordering) (a : α) (items : List α) :
    (insertBack compare a items).Perm (a :: items) := by
  induction items with
  | nil => exact .refl _
  | cons b rest ih =>
    rw [insertBack]
    split
    · exact (ih.cons b).trans (.swap a b rest)
    · exact .refl _

theorem insertBack_congr {compare order : α → α → Ordering} {a : α} {items : List α}
    (same : ∀ b ∈ items, compare a b = order a b) :
    insertBack compare a items = insertBack order a items := by
  induction items with
  | nil => rfl
  | cons b rest ih =>
    rw [List.forall_mem_cons] at same
    rw [insertBack, insertBack, same.1, ih same.2]

section

variable {order : α → α → Ordering} [Std.TransCmp order]

theorem pairwise_insertBack {a : α} {items : List α}
    (sorted : items.Pairwise fun b c => order c b ≠ .gt) :
    (insertBack order a items).Pairwise fun b c => order c b ≠ .gt := by
  induction items with
  | nil => exact List.pairwise_singleton _ a
  | cons b rest ih =>
    obtain ⟨below, tail⟩ := List.pairwise_cons.mp sorted
    rw [insertBack]
    split
    next less =>
      refine List.pairwise_cons.mpr ⟨fun c listed => ?_, ih tail⟩
      rcases List.mem_cons.mp ((insertBack_perm order a rest).mem_iff.mp listed) with rfl | listed
      · rw [less]
        exact Ordering.noConfusion
      · exact below c listed
    next notLess =>
      have here : order b a ≠ .gt := fun greater => notLess (Std.OrientedCmp.lt_of_gt greater)
      refine List.pairwise_cons.mpr ⟨fun c listed => ?_, sorted⟩
      rcases List.mem_cons.mp listed with rfl | listed
      · exact here
      · exact StablySorted.ne_gt_trans (below c listed) here

/-- Tied items stay in their order: an item does not pass one that is tied with it. -/
theorem filter_insertBack (a b : α) (items : List α) :
    (insertBack order a items).filter (order b · == .eq) =
      (a :: items).filter (order b · == .eq) := by
  induction items with
  | nil => rfl
  | cons c rest ih =>
    rw [insertBack]
    split
    next less =>
      rw [List.filter_cons, ih, List.filter_cons, List.filter_cons, List.filter_cons]
      by_cases tied : order b a = .eq
      · have apart : order b c = .lt := (Std.TransCmp.congr_left tied).trans less
        simp [tied, apart]
      · simp [tied]
    next => rfl

end

/-- Inserts items one after the other into a list that is held from its end. -/
def insertAll (compare : α → α → Ordering) (sorted items : List α) : List α :=
  items.foldl (fun sorted a => insertBack compare a sorted) sorted

theorem insertAll_perm (compare : α → α → Ordering) (sorted items : List α) :
    (insertAll compare sorted items).Perm (items.reverse ++ sorted) := by
  induction items generalizing sorted with
  | nil => exact .refl _
  | cons a rest ih =>
    rw [List.reverse_cons, List.append_assoc]
    exact (ih _).trans ((insertBack_perm compare a sorted).append_left _)

theorem insertAll_congr {compare order : α → α → Ordering} {sorted items : List α}
    (same : ∀ a ∈ items, ∀ b ∈ items ++ sorted, compare a b = order a b) :
    insertAll compare sorted items = insertAll order sorted items := by
  induction items generalizing sorted with
  | nil => rfl
  | cons a rest ih =>
    have here : insertBack compare a sorted = insertBack order a sorted :=
      insertBack_congr fun b listed =>
        same a List.mem_cons_self b (List.mem_append_right _ listed)
    have later : ∀ c ∈ rest, ∀ b ∈ rest ++ insertBack order a sorted,
        compare c b = order c b := by
      intro c among b listed
      apply same c (List.mem_cons_of_mem a among)
      have perm := (insertBack_perm order a sorted).append_left rest
      have moved := perm.trans List.perm_middle
      exact moved.mem_iff.mp listed
    rw [insertAll, insertAll, List.foldl_cons, List.foldl_cons, here]
    exact ih later

section

variable {order : α → α → Ordering} [Std.TransCmp order]

theorem pairwise_insertAll {sorted : List α} (items : List α)
    (descends : sorted.Pairwise fun b c => order c b ≠ .gt) :
    (insertAll order sorted items).Pairwise fun b c => order c b ≠ .gt := by
  induction items generalizing sorted with
  | nil => exact descends
  | cons a rest ih => exact ih (pairwise_insertBack descends)

theorem filter_insertAll (b : α) (sorted items : List α) :
    (insertAll order sorted items).filter (order b · == .eq) =
      (items.reverse ++ sorted).filter (order b · == .eq) := by
  induction items generalizing sorted with
  | nil => rfl
  | cons a rest ih =>
    rw [insertAll, List.foldl_cons, ← insertAll, ih, List.filter_append, filter_insertBack,
      ← List.filter_append, List.reverse_cons, List.append_assoc]
    rfl

theorem stablySorted_insertAll (items : List α) :
    StablySorted order items (insertAll order [] items).reverse where
  perm := by
    refine (List.reverse_perm _).trans ((insertAll_perm order [] items).trans ?_)
    rw [List.append_nil]
    exact List.reverse_perm items
  sorted := List.pairwise_reverse.mpr (pairwise_insertAll items .nil)
  stable a := by
    rw [List.filter_reverse, filter_insertAll, List.append_nil, List.filter_reverse,
      List.reverse_reverse]

end

/-- Sorting by insertion: every item is moved forward past those before it that are greater. -/
def insertion : Sorter α where
  sort compare items := (insertAll compare [] items).reverse
  perm compare items := by
    refine (List.reverse_perm _).trans ((insertAll_perm compare [] items).trans ?_)
    rw [List.append_nil]
    exact List.reverse_perm items
  stable order _ compare items same := by
    have alike : insertAll compare [] items = insertAll order [] items :=
      insertAll_congr (by simpa using same)
    rw [alike]
    exact stablySorted_insertAll items

end Sorter
end DocQuery
