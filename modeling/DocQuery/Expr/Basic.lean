import DocQuery.Expr.Literal
import DocQuery.Text.Dotted

/-!
# Query expressions

An expression is the body of a function of one parameter, the document that is
queried. `memberChain?` reads the names of a member access from the parameter on.
-/
namespace DocQuery

inductive CompareOp where
  | eq | ne | lt | lte | gt | gte
  deriving DecidableEq, Repr

namespace CompareOp

def operator : CompareOp → String
  | .eq => "$eq"
  | .ne => "$ne"
  | .lt => "$lt"
  | .lte => "$lte"
  | .gt => "$gt"
  | .gte => "$gte"

/-- The comparison that holds of the operands in the other order. -/
def swap : CompareOp → CompareOp
  | .eq => .eq
  | .ne => .ne
  | .lt => .gt
  | .lte => .gte
  | .gt => .lt
  | .gte => .lte

end CompareOp

inductive LogicalOp where
  | and | or
  deriving DecidableEq, Repr

def LogicalOp.operator : LogicalOp → String
  | .and => "$and"
  | .or => "$or"

/-- A query expression over one document. -/
inductive Expr where
  | parameter
  | member (target : Expr) (name : String)
  | constant (value : Literal)
  | compare (op : CompareOp) (left right : Expr)
  | logical (op : LogicalOp) (left right : Expr)
  | not (inner : Expr)
  | construct (members : List (String × Expr))
  | call (method : String) (target : Expr) (arguments : List Expr)
  deriving Repr

namespace Expr

/-- The member access along a sequence of names. -/
def access (names : List String) : Expr :=
  names.foldl member parameter

/-- The member access that a dotted path writes. -/
def field (path : String) : Expr :=
  access (Dotted.segments path)

/-- The names from the parameter to a member access; the parameter alone has none. -/
def chainFrom? : Expr → Option (List String)
  | .parameter => some []
  | .member target name => (chainFrom? target).map (· ++ [name])
  | _ => none

/-- The names of a member access from the parameter on, at least one. -/
def memberChain? (e : Expr) : Option (List String) :=
  match e with
  | .member _ _ => e.chainFrom?
  | _ => none

/-- The kinds of expressions, as far as messages tell them apart. -/
inductive Kind where
  | parameter
  | member (name : String)
  | constant (kind : Literal.Kind)
  | comparison (op : CompareOp)
  | connective (op : LogicalOp)
  | negation
  | construction
  | call (method : String)
  deriving DecidableEq, Repr

def Kind.describe : Kind → String
  | .parameter => "parameter"
  | .member name => "member access `" ++ name ++ "`"
  | .constant kind => kind.name ++ " constant"
  | .comparison op => "comparison `" ++ op.operator ++ "`"
  | .connective op => "connective `" ++ op.operator ++ "`"
  | .negation => "negation"
  | .construction => "object construction"
  | .call method => "method call `" ++ method ++ "`"

def kind : Expr → Kind
  | .parameter => .parameter
  | .member _ name => .member name
  | .constant value => .constant value.kind
  | .compare op _ _ => .comparison op
  | .logical op _ _ => .connective op
  | .not _ => .negation
  | .construct _ => .construction
  | .call method _ _ => .call method

end Expr
end DocQuery
