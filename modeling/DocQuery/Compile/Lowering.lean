import DocQuery.Compile.Computed
import DocQuery.Compile.Stage

/-!
# Lowering operations

Every operation is lowered to one stage by the rule of its kind: a filter to
`$match`, a selection to `$project`, an order to `$sort` with one key, and the two
counts to `$skip` and `$limit`.
-/
namespace DocQuery

structure Context where
  mapping : FieldMapping
  scope : Scope
  config : Config

namespace Context

def filterStage (context : Context) (predicate : Expr) : Except CompileError Stage := do
  let condition ← context.scope.condition context.mapping predicate
  return ⟨"$match", .obj (condition.document context.config.flattening)⟩

/-- The members of a `$project` stage, without the identity. -/
def selection (context : Context) (projection : Expr) : Except CompileError Members :=
  match projection with
  | .member _ _ => do
    let field ← context.scope.resolveExpr context.mapping projection
    return [(field.path, .str (Sigil.mark field.path))]
  | .construct members => do
    let values ← context.scope.computedMembers context.mapping [] members
    return Computed.memberForms context.config.flattening values
  | e => .error (.unsupported (.notSelectable e.kind))

/-- The members of a `$project` body with the identity left out unless it is one of them. -/
def withIdentity (members : Members) : Members :=
  if members.has "_id" then members else members.insert "_id" (.num (.int 0))

def selectStage (context : Context) (projection : Expr) : Except CompileError Stage := do
  let members ← context.selection projection
  if members.isEmpty then throw (.unsupported .emptyConstruction)
  return ⟨"$project", .obj (withIdentity members)⟩

/-- The path that documents are ordered by. -/
def sortKey (context : Context) (key : Expr) : Except CompileError String :=
  match key with
  | .member _ _ => do return (← context.scope.resolveExpr context.mapping key).path
  | e => .error (.unsupported (.notASortKey e.kind))

/-- The `$sort` stage of an order: 1 ascends and -1 descends. -/
def sortStage (context : Context) (key : Expr) (direction : Int) : Except CompileError Stage := do
  let path ← context.sortKey key
  return ⟨"$sort", .obj [(path, .num (.int direction))]⟩

/-- The count that an expression gives: a constant integer that is not negative and
fits a signed word. -/
def count (operation : OperationKind) : Expr → Except CompileError Nat
  | .constant (.uint n) => .error (.invalidCount operation (.tooLarge n))
  | .constant value =>
    match value.count? with
    | some n => .ok n
    | none => .error (.invalidCount operation (.notACount value))
  | e => .error (.invalidCount operation (.notConstant e.kind))

def countStage (operator : String) (kind : OperationKind) (e : Expr) :
    Except CompileError Stage := do
  return ⟨operator, .num (.int (← count kind e))⟩

/-- The stage that a rule makes of an operation. -/
def applyRule (context : Context) (rule : Rule) (operation : Operation) :
    Except CompileError Stage :=
  match rule, operation with
  | .filter, .filter predicate => context.filterStage predicate
  | .select, .select projection => context.selectStage projection
  | .orderBy, .orderBy key => context.sortStage key 1
  | .orderBy, .orderByDescending key => context.sortStage key (-1)
  | .skip, .skip e => countStage "$skip" .skip e
  | .take, .take e => countStage "$limit" .take e
  | rule, operation => .error (.unsupported (.wrongRule rule operation.kind))

def stage (context : Context) (rules : RuleSet) (operation : Operation) :
    Except CompileError Stage :=
  match rules operation.kind with
  | some rule => context.applyRule rule operation
  | none => .error (.unsupported (.noRule operation.kind))

end Context
end DocQuery
