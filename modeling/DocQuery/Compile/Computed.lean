import DocQuery.Compile.Condition

/-!
# Computed values

A computed value is a projection whose members are resolved to paths and whose
constants have their document form. `Scope.computed` makes one of an expression or
reports the leftmost part that has none; `Computed.form` lays it out for a
`$project` stage.
-/
namespace DocQuery

/-- A resolved projection of documents. -/
inductive Computed where
  | field (path : String)
  | constant (value : Json)
  | construct (members : List (String × Computed))
  | compare (op : CompareOp) (left right : Computed)
  | logical (op : LogicalOp) (left right : Computed)
  | not (inner : Computed)
  deriving Repr

namespace Scope

mutual

/-- The value that a projection computes. -/
def computed (mapping : FieldMapping) (scope : Scope) : Expr → Except CompileError Computed
  | .member target name => do
    return .field (← scope.resolveExpr mapping (.member target name)).path
  | .constant value => do return .constant (← constantForm value)
  | .construct members => do return .construct (← computedMembers mapping scope [] members)
  | .compare op left right => do
    let first ← computed mapping scope left
    return .compare op first (← computed mapping scope right)
  | .logical op left right => do
    let first ← computed mapping scope left
    return .logical op first (← computed mapping scope right)
  | .not inner => do return .not (← computed mapping scope inner)
  | e => .error (.unsupported (.notComputable e.kind))

/-- The values of constructed members after those already named. -/
def computedMembers (mapping : FieldMapping) (scope : Scope) (named : List String) :
    List (String × Expr) → Except CompileError (List (String × Computed))
  | [] => .ok []
  | (name, e) :: rest => do
    if name ∈ named then throw (.unsupported (.duplicateMember name))
    let value ← computed mapping scope e
    return (name, value) :: (← computedMembers mapping scope (name :: named) rest)

end

end Scope

namespace Computed

/-- The form of a value under an operator: a constant stands for itself unless it
would be read as a reference to a field. -/
def operandForm (value : Computed) (form : Json) : Json :=
  match value with
  | .constant (.str text) => if Sigil.isMarked text then form else .str text
  | .constant literal => literal
  | _ => form

mutual

/-- The forms that a value adds to a chain of a connective. -/
def operandForms (layout : Flattening) (op : LogicalOp) : Computed → List Json
  | .field path => [.str (Sigil.mark path)]
  | .constant value => [.obj [("$literal", value)]]
  | .construct members => [.obj (memberForms layout members)]
  | .compare comparison left right =>
    [.obj [(comparison.operator,
      .arr [operandForm left (form layout left), operandForm right (form layout right)])]]
  | .logical inner left right =>
    match layout with
    | .nested => [.obj [(inner.operator, .arr [form layout left, form layout right])]]
    | _ =>
      let chain := operandForms layout inner left ++ operandForms layout inner right
      if inner = op then chain else [.obj [(inner.operator, .arr chain)]]
  | .not inner => [.obj [("$not", .arr [form layout inner])]]

/-- The form of a value in a `$project` stage. -/
def form (layout : Flattening) : Computed → Json
  | .field path => .str (Sigil.mark path)
  | .constant value => .obj [("$literal", value)]
  | .construct members => .obj (memberForms layout members)
  | .compare comparison left right =>
    .obj [(comparison.operator,
      .arr [operandForm left (form layout left), operandForm right (form layout right)])]
  | .logical op left right =>
    match layout with
    | .nested => .obj [(op.operator, .arr [form layout left, form layout right])]
    | _ => .obj [(op.operator, .arr (operandForms layout op left ++ operandForms layout op right))]
  | .not inner => .obj [("$not", .arr [form layout inner])]

def memberForms (layout : Flattening) : List (String × Computed) → Members
  | [] => []
  | (name, value) :: rest => (name, form layout value) :: memberForms layout rest

end

end Computed
end DocQuery
