import DocQuery.Document.Order

/-!
# Laws of comparison

Comparing two values in the other order gives the reversed order, and is possible
for the same pairs (`compareLike_swap`).
-/
namespace DocQuery

theorem Number.compare_swap (a b : Number) : (a.compare b).swap = b.compare a := by
  unfold Number.compare
  cases a.signed? <;> cases b.signed? <;> exact Std.OrientedOrd.eq_swap.symm

namespace Json

/-- Two extended values are compared by their texts if their tags agree. -/
def compareExtended (a b : Json) : Option Ordering :=
  match a.extended?, b.extended? with
  | some (tag, text), some (otherTag, otherText) =>
    if tag = otherTag then some (compare text otherText) else none
  | _, _ => none

theorem compareExtended_swap (a b : Json) :
    (compareExtended a b).map Ordering.swap = compareExtended b a := by
  unfold compareExtended
  rcases a.extended? with _ | ⟨tag, text⟩
  · cases b.extended? <;> rfl
  · rcases b.extended? with _ | ⟨otherTag, otherText⟩
    · rfl
    · by_cases same : tag = otherTag
      · simp only [same, if_true, Option.map_some]
        rw [Std.OrientedOrd.eq_swap (a := text), Ordering.swap_swap]
      · simp only [same, Ne.symm same, if_false, Option.map_none]

theorem compareLike_swap (a b : Json) : (a.compareLike b).map Ordering.swap = b.compareLike a := by
  have extended := compareExtended_swap a b
  cases a <;> cases b
  case null.null => rfl
  case bool.bool a b => simp only [compareLike, Option.map_some, ← Std.OrientedOrd.eq_swap]
  case num.num a b => simp only [compareLike, Option.map_some, Number.compare_swap]
  case str.str a b => simp only [compareLike, Option.map_some, ← Std.OrientedOrd.eq_swap]
  all_goals exact extended

end Json
end DocQuery
