import DocQuery.Config.Basic
import DocQuery.Expr.Basic

/-!
# Chains of connectives

A chain is made of one connective, however it is grouped. `Expr.operands` gathers its operands
from left to right. A lowering that resolves a chain as a whole and a lowering that takes the
operands one by one are the same, with the same operand refused first (`mapM_operands_eq`).
-/
namespace DocQuery.Expr

/-- The operands of a chain of one connective, from left to right. -/
def operands (op : LogicalOp) : Expr → List Expr
  | .logical inner left right =>
    if inner = op then left.operands op ++ right.operands op else [.logical inner left right]
  | e => [e]

theorem operands_chain (op : LogicalOp) (left right : Expr) :
    (logical op left right).operands op = left.operands op ++ right.operands op :=
  if_pos rfl

/-- What is no chain of the connective is an operand itself. -/
theorem operands_of_other {op : LogicalOp} {e : Expr} (other : e.kind ≠ .connective op) :
    e.operands op = [e] := by
  cases e with
  | logical inner left right =>
    refine if_neg ?_
    rintro rfl
    exact other rfl
  | _ => rfl

/-- Induction along the chains of a connective, down to their operands. -/
theorem chain_induction (op : LogicalOp) {motive : Expr → Prop}
    (chain : ∀ left right, motive left → motive right → motive (.logical op left right))
    (alone : ∀ e, e.kind ≠ .connective op → motive e) : ∀ e, motive e
  | .logical inner left right => by
    by_cases same : inner = op
    · subst same
      exact chain left right (chain_induction inner chain alone left)
        (chain_induction inner chain alone right)
    · exact alone _ (by simpa [kind] using same)
  | .parameter | .member _ _ | .constant _ | .compare _ _ _ | .not _ | .construct _ | .call _ _ _ =>
    alone _ (by simp [kind])

/-- The operands of a connective that a layout puts side by side. -/
def operandsIn (layout : Flattening) (op : LogicalOp) (left right : Expr) : List Expr :=
  match layout with
  | .nested => [left, right]
  | _ => (logical op left right).operands op

theorem operandsIn_of_flat {layout : Flattening} (flat : layout ≠ .nested) (op : LogicalOp)
    (left right : Expr) : operandsIn layout op left right = (logical op left right).operands op := by
  cases layout with
  | nested => exact absurd rfl flat
  | flatten | merge => rfl

theorem mapM_singleton {ε β : Type} (lower : Expr → Except ε β) (e : Expr) :
    [e].mapM lower = (lower e).map ([·]) := by
  rw [List.mapM_cons, List.mapM_nil]
  cases lower e <;> rfl

/-- What is gathered along a chain, and is made of anything else alone, is made of the operands
of the chain one by one. -/
theorem mapM_operands_eq {ε β : Type} {op : LogicalOp} {lower : Expr → Except ε β}
    (gather : Expr → Except ε (List β))
    (chain : ∀ left right, gather (.logical op left right) = do
      let first ← gather left
      return first ++ (← gather right))
    (alone : ∀ e, e.kind ≠ .connective op → gather e = (lower e).map ([·])) (e : Expr) :
    (e.operands op).mapM lower = gather e := by
  induction e using chain_induction op with
  | chain left right ihLeft ihRight =>
    rw [operands_chain, List.mapM_append, ihLeft, ihRight, chain]
  | alone e other => rw [operands_of_other other, mapM_singleton, alone e other]

/-- No operand of a chain is a chain of the same connective. -/
theorem kind_of_operand {op : LogicalOp} {e operand : Expr} (listed : operand ∈ e.operands op) :
    operand.kind ≠ .connective op := by
  induction e using chain_induction op with
  | chain left right ihLeft ihRight =>
    rw [operands_chain, List.mem_append] at listed
    exact listed.elim ihLeft ihRight
  | alone e other =>
    rw [operands_of_other other, List.mem_singleton] at listed
    exact listed ▸ other

theorem sizeOf_operand {op : LogicalOp} {e operand : Expr} (listed : operand ∈ e.operands op) :
    sizeOf operand ≤ sizeOf e := by
  induction e using chain_induction op with
  | chain left right ihLeft ihRight =>
    rw [operands_chain, List.mem_append] at listed
    have smaller := listed.imp ihLeft ihRight
    simp only [logical.sizeOf_spec]
    omega
  | alone e other =>
    rw [operands_of_other other, List.mem_singleton] at listed
    exact Nat.le_of_eq (congrArg sizeOf listed)

/-- The operands of a connective are smaller than it. -/
theorem sizeOf_operandsIn {layout : Flattening} {op : LogicalOp} {left right operand : Expr}
    (listed : operand ∈ operandsIn layout op left right) :
    sizeOf operand < sizeOf (logical op left right) := by
  simp only [logical.sizeOf_spec]
  by_cases nested : layout = .nested
  · subst nested
    simp only [operandsIn, List.mem_cons, List.not_mem_nil, or_false] at listed
    rcases listed with rfl | rfl <;> omega
  · rw [operandsIn_of_flat nested, operands_chain, List.mem_append] at listed
    have smaller := listed.imp sizeOf_operand sizeOf_operand
    omega

end DocQuery.Expr
