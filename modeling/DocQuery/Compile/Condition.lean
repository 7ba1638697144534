import DocQuery.Compile.Scope
import DocQuery.Config.Basic
import DocQuery.Document.Json
import DocQuery.Document.Sigil

/-!
# Conditions

A condition is a predicate whose members are resolved to paths and whose constants
have their document form. `Scope.condition` makes one of an expression or reports
the leftmost part that has none; `Condition.document` lays it out for a `$match`
stage. The layout chooses between nested, flat and merged connectives and never
fails.
-/
namespace DocQuery

/-- A resolved predicate over documents. -/
inductive Condition where
  | compare (path : String) (op : CompareOp) (value : Json)
  | oneOf (path : String) (values : List Json)
  | logical (op : LogicalOp) (left right : Condition)
  | not (inner : Condition)
  deriving Repr

def constantForm (value : Literal) : Except CompileError Json :=
  match value.document? with
  | some form => .ok form
  | none => .error (.unsupported .nonFiniteConstant)

/-- The document forms of constants, up to the first without one. -/
def constantForms (values : List Literal) : Except CompileError (List Json) :=
  values.mapM constantForm

namespace Scope

def comparison (mapping : FieldMapping) (scope : Scope) (op : CompareOp) (member : Expr)
    (value : Literal) : Except CompileError Condition := do
  let field ← scope.resolveExpr mapping member
  return .compare field.path op (← constantForm value)

/-- The condition that a predicate states. -/
def condition (mapping : FieldMapping) (scope : Scope) : Expr → Except CompileError Condition
  | .compare _ (.constant _) (.constant _) => .error (.unsupported .twoConstants)
  | .compare op left (.constant value) => scope.comparison mapping op left value
  | .compare op (.constant value) right => scope.comparison mapping op.swap right value
  | .compare _ left right => .error (.unsupported (.noConstant left.kind right.kind))
  | .logical op left right => do
    let first ← condition mapping scope left
    return .logical op first (← condition mapping scope right)
  | .not (.member target name) => do
    let field ← scope.resolveExpr mapping (.member target name)
    return .compare field.path .ne (.bool true)
  | .not inner => do return .not (← condition mapping scope inner)
  | .member target name => do
    let field ← scope.resolveExpr mapping (.member target name)
    return .compare field.path .eq (.bool true)
  | .call method target arguments =>
    if method = "contains" then
      match target, arguments with
      | .constant (.array items), [member] => do
        let field ← scope.resolveExpr mapping member
        return .oneOf field.path (← constantForms items)
      | _, _ => .error (.unsupported (.containsOperands target.kind arguments.length))
    else .error (.unsupported (.unknownMethod method))
  | e => .error (.unsupported (.notAPredicate e.kind))

end Scope

/-- The members of all documents in one, unless one of them is an operator or a
name repeats. -/
def mergeDisjoint? : Members → List Members → Option Members
  | merged, [] => some merged
  | merged, document :: rest =>
    match document.foldlM (fun merged (name, value) =>
        if Sigil.isMarked name || merged.has name then none
        else some (merged.insert name value)) merged with
    | some merged => mergeDisjoint? merged rest
    | none => none

namespace Condition

/-- A connective over laid out operands. -/
def connective (layout : Flattening) (op : LogicalOp) (operands : List Members) : Members :=
  let array : Members := [(op.operator, .arr (operands.map .obj))]
  match layout, op with
  | .merge, .and => (mergeDisjoint? [] operands).getD array
  | _, _ => array

mutual

/-- The laid out operands that a condition adds to a chain of a connective: those
of its own chain if it is of the same connective, or itself. -/
def operands (layout : Flattening) (op : LogicalOp) : Condition → List Members
  | .compare path comparison value =>
    [[(path, .obj [(comparison.operator, value)])]]
  | .oneOf path values => [[(path, .obj [("$in", .arr values)])]]
  | .logical inner left right =>
    match layout with
    | .nested => [connective layout inner [document layout left, document layout right]]
    | _ =>
      let chain := operands layout inner left ++ operands layout inner right
      if inner = op then chain else [connective layout inner chain]
  | .not inner => [[("$nor", .arr [.obj (document layout inner)])]]

/-- The document of a condition in a `$match` stage. -/
def document (layout : Flattening) : Condition → Members
  | .compare path comparison value =>
    [(path, .obj [(comparison.operator, value)])]
  | .oneOf path values => [(path, .obj [("$in", .arr values)])]
  | .logical op left right =>
    match layout with
    | .nested => connective layout op [document layout left, document layout right]
    | _ => connective layout op (operands layout op left ++ operands layout op right)
  | .not inner => [("$nor", .arr [.obj (document layout inner)])]

end

end Condition
end DocQuery
