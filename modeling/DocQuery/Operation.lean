import DocQuery.Expr.Basic

/-!
# Query operations

The operations a query is built from, and the chains they form. A chain is the
empty root or an operation appended to a chain, so chains that share a beginning
share it as a value.
-/
namespace DocQuery

inductive OperationKind where
  | filter | select | orderBy | orderByDescending | skip | take
  deriving DecidableEq, Repr

namespace OperationKind

def name : OperationKind → String
  | .filter => "Where"
  | .select => "Select"
  | .orderBy => "OrderBy"
  | .orderByDescending => "OrderByDescending"
  | .skip => "Skip"
  | .take => "Take"

end OperationKind

inductive Operation where
  | filter (predicate : Expr)
  | select (projection : Expr)
  | orderBy (key : Expr)
  | orderByDescending (key : Expr)
  | skip (count : Expr)
  | take (count : Expr)
  deriving Repr

def Operation.kind : Operation → OperationKind
  | .filter _ => .filter
  | .select _ => .select
  | .orderBy _ => .orderBy
  | .orderByDescending _ => .orderByDescending
  | .skip _ => .skip
  | .take _ => .take

/-- A sequence of operations, grown at its end. -/
inductive Chain where
  | root
  | append (input : Chain) (operation : Operation)
  deriving Repr

namespace Chain

def depth : Chain → Nat
  | .root => 0
  | .append input _ => input.depth + 1

def operations : Chain → List Operation
  | .root => []
  | .append input operation => input.operations ++ [operation]

@[simp] theorem length_operations (chain : Chain) : chain.operations.length = chain.depth := by
  induction chain with
  | root => rfl
  | append input operation ih => simp [operations, depth, ih]

end Chain
end DocQuery
