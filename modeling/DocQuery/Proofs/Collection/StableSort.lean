import DocQuery.Collection.Sorter
import Mathlib.Data.List.Basic

/-!
# Stable sorting

A list is sorted stably by a comparison if its items come in the order of the comparison,
and items that are tied come in the order in which they were. This determines the result
(`StablySorted.unique`). Sorting by one comparison and then by another one is sorting by the
second first, the first one deciding ties (`StablySorted.then`).
-/
namespace DocQuery

variable {α : Type}

namespace StablySorted

variable {order : α → α → Ordering} [Std.TransCmp order]

theorem eq_of_tied {a b c : α} (first : order a b = .eq) (second : order a c = .eq) :
    order b c = .eq := by
  have back : order b a = .eq := Std.OrientedCmp.eq_symm first
  exact Std.TransCmp.eq_trans back second

/-- Merge sort is stable. -/
theorem mergeSort (items : List α) :
    StablySorted order items (items.mergeSort fun a b => order a b != .gt) := by
  have trans (a b c : α) : (order a b != .gt) = true → (order b c != .gt) = true →
      (order a c != .gt) = true := by
    simp only [bne_iff_ne]
    exact ne_gt_trans
  have total (a b : α) : ((order a b != .gt) || (order b a != .gt)) = true := by
    have swapped : order b a = (order a b).swap := Std.OrientedCmp.eq_swap
    rw [swapped]
    cases order a b <;> rfl
  have perm := List.mergeSort_perm items fun a b => order a b != .gt
  refine ⟨perm, ?_, ?_⟩
  · have sorted := List.pairwise_mergeSort trans total items
    simpa only [bne_iff_ne] using sorted
  · intro a
    -- The items tied with `a` are in order as they stand, so sorting keeps them as they stand.
    have inOrder : (items.filter (order a · == .eq)).Pairwise fun b c => (order b c != .gt) = true := by
      rw [List.pairwise_filter]
      apply List.pairwise_of_forall
      intro b c tiedB tiedC
      rw [eq_of_tied (beq_iff_eq.mp tiedB) (beq_iff_eq.mp tiedC)]
      rfl
    have kept := (List.sublist_mergeSort trans total inOrder List.filter_sublist).filter
      (order a · == .eq)
    rw [List.filter_filter] at kept
    simp only [Bool.and_self] at kept
    exact (kept.eq_of_length (perm.filter _).length_eq.symm).symm

/-- The first item of a list in order is at most any item of a list with the same ties. -/
theorem head_ne_gt {a b : α} {first second : List α}
    (same : ∀ c, (a :: first).filter (order c · == .eq) = second.filter (order c · == .eq))
    (sorted : (a :: first).Pairwise fun b c => order b c ≠ .gt) (member : b ∈ second) :
    order a b ≠ .gt := by
  have self (c : α) : order c c = .eq := Std.ReflCmp.compare_self
  have tied : b ∈ second.filter (order b · == .eq) := by simp [member, self]
  rw [← same b] at tied
  rcases List.mem_cons.mp (List.mem_of_mem_filter tied) with rfl | later
  · simp [self]
  · exact List.rel_of_pairwise_cons sorted later

/-- There is one stable way to sort a list. -/
theorem unique {input first second : List α} (one : StablySorted order input first)
    (other : StablySorted order input second) : first = second := by
  have same (a : α) : first.filter (order a · == .eq) = second.filter (order a · == .eq) :=
    (one.stable a).trans (other.stable a).symm
  have sortedFirst := one.sorted
  have sortedSecond := other.sorted
  clear one other
  have self (a : α) : order a a = .eq := Std.ReflCmp.compare_self
  induction first generalizing second with
  | nil =>
    cases second with
    | nil => rfl
    | cons b others =>
      have nothing := same b
      simp [self] at nothing
  | cons a rest ih =>
    cases second with
    | nil =>
      have nothing := same a
      simp [self] at nothing
    | cons b others =>
      have forth : order a b ≠ .gt := head_ne_gt same sortedFirst (by simp)
      have back : order b a ≠ .gt := head_ne_gt (fun c => (same c).symm) sortedSecond (by simp)
      have tied : order a b = .eq := by
        have swapped : order b a = (order a b).swap := Std.OrientedCmp.eq_swap
        rw [swapped] at back
        revert forth back
        cases order a b <;> simp
      have heads := same a
      simp only [List.filter_cons, self, tied, beq_self_eq_true, if_true, List.cons.injEq] at heads
      obtain ⟨rfl, -⟩ := heads
      have tails (c : α) : rest.filter (order c · == .eq) = others.filter (order c · == .eq) := by
        have whole := same c
        simp only [List.filter_cons] at whole
        split at whole
        · exact (List.cons.inj whole).2
        · exact whole
      rw [ih tails sortedFirst.tail sortedSecond.tail]

end StablySorted

section

variable {major minor : α → α → Ordering}

/-- Items that are tied in both comparisons. -/
theorem filter_compareLex (a : α) (items : List α) :
    items.filter (compareLex major minor a · == .eq) =
      (items.filter (minor a · == .eq)).filter (major a · == .eq) := by
  rw [List.filter_filter]
  apply List.filter_congr
  intro b _
  unfold compareLex
  cases major a b <;> rfl

/-- Sorting by one comparison and then by another one sorts by both: the second comes first,
and the first decides between items that are tied in it. -/
theorem StablySorted.then [Std.TransCmp major] {input middle output : List α}
    (first : StablySorted minor input middle) (second : StablySorted major middle output) :
    StablySorted (compareLex major minor) input output := by
  refine ⟨second.perm.trans first.perm, ?_, ?_⟩
  · rw [List.pairwise_iff_forall_sublist]
    intro a b pair
    have before : major a b ≠ .gt := List.pairwise_iff_forall_sublist.mp second.sorted pair
    unfold compareLex
    cases order : major a b with
    | lt => simp
    | gt => exact absurd order before
    | eq =>
      -- Tied items stand as the first sorting left them.
      have self : major a a = .eq := Std.ReflCmp.compare_self
      have tied : [a, b].filter (major a · == .eq) = [a, b] := by simp [order, self]
      have left := pair.filter (major a · == .eq)
      rw [tied, second.stable] at left
      exact List.pairwise_iff_forall_sublist.mp first.sorted (left.trans List.filter_sublist)
  · intro a
    calc output.filter (compareLex major minor a · == .eq)
        = (output.filter (major a · == .eq)).filter (minor a · == .eq) := by
          rw [filter_compareLex, List.filter_comm]
      _ = (middle.filter (major a · == .eq)).filter (minor a · == .eq) := by rw [second.stable]
      _ = (middle.filter (minor a · == .eq)).filter (major a · == .eq) := List.filter_comm _ _ _
      _ = (input.filter (minor a · == .eq)).filter (major a · == .eq) := by rw [first.stable]
      _ = input.filter (compareLex major minor a · == .eq) := (filter_compareLex a input).symm

end

end DocQuery
