import DocQuery.Compile.Error
import DocQuery.Mapping

/-!
# Scopes and field paths

Member names are resolved in a scope. In the scope of an entity type the mapping
gives each member its stored name; behind a projection the names are those of the
constructed document, down to a copied entity, where the mapping takes over again.
Every name of a chain must be known, and the first unknown one is reported.
-/
namespace DocQuery

/-- What is known about a value in the output of a projection. -/
inductive Shape where
  | scalar
  | entity (entityType : String)
  | document (members : List (String × Shape))
  deriving Repr, Inhabited

/-- What member names are resolved against. -/
inductive Scope where
  | entity (entityType : String)
  | projection (shape : Shape)
  deriving Repr

/-- A field in stored documents: its path and what its value is. -/
structure ResolvedField where
  path : String
  shape : Shape
  deriving Repr

namespace Shape

/-- A value nested under a sequence of names. -/
def nested (names : List String) (leaf : Shape) : Shape :=
  names.foldr (fun name inner => document [(name, inner)]) leaf

end Shape

namespace Scope

/-- The documents still have the shape of the entity that is queried. -/
def isEntity : Scope → Bool
  | .entity _ => true
  | .projection _ => false

/-- The stored names of a chain below a member of the given entity type, or of none. -/
def walkEntity (mapping : FieldMapping) (declared : String) :
    Option String → List String → Except CompileError (List String × Shape)
  | owner, [] => .ok ([], owner.elim .scalar .entity)
  | none, member :: _ => .error (.unknownField declared member)
  | some owner, member :: rest =>
    match mapping owner member with
    | none => .error (.unknownField owner member)
    | some mapped => do
      let (names, shape) ←
        walkEntity mapping (declared ++ "." ++ member) mapped.nestedType rest
      return (mapped.wireName member :: names, shape)

/-- The names of a chain below a projected value. -/
def walkShape (mapping : FieldMapping) (declared : String) :
    Shape → List String → Except CompileError (List String × Shape)
  | shape, [] => .ok ([], shape)
  | .entity owner, chain => walkEntity mapping declared (some owner) chain
  | .scalar, member :: _ => .error (.unknownField declared member)
  | .document members, member :: rest =>
    match Assoc.get? members member with
    | none => .error (.unknownField declared member)
    | some shape => do
      let (names, leaf) ← walkShape mapping (declared ++ "." ++ member) shape rest
      return (member :: names, leaf)

/-- The stored names of a chain in a scope. -/
def walk (mapping : FieldMapping) : Scope → List String → Except CompileError (List String × Shape)
  | .entity owner, chain => walkEntity mapping owner (some owner) chain
  | .projection shape, chain => walkShape mapping "projection" shape chain

/-- The field that a chain of member names denotes. -/
def resolve (mapping : FieldMapping) (scope : Scope) (chain : List String) :
    Except CompileError ResolvedField :=
  match chain with
  | [] => .error (.unsupported .emptyChain)
  | chain => do
    let (names, shape) ← scope.walk mapping chain
    return ⟨Dotted.join names, shape⟩

def resolveExpr (mapping : FieldMapping) (scope : Scope) (e : Expr) :
    Except CompileError ResolvedField :=
  match e.memberChain? with
  | some chain => scope.resolve mapping chain
  | none => .error (.unsupported (.notAField e.kind))

mutual

def shapeOf (mapping : FieldMapping) (scope : Scope) : Expr → Except CompileError Shape
  | .construct members => do return .document (← shapesOf mapping scope members)
  | .member target name => do
    return (← scope.resolveExpr mapping (.member target name)).shape
  | _ => .ok .scalar

def shapesOf (mapping : FieldMapping) (scope : Scope) :
    List (String × Expr) → Except CompileError (List (String × Shape))
  | [] => .ok []
  | (name, e) :: rest => do
    let shape ← shapeOf mapping scope e
    return (name, shape) :: (← shapesOf mapping scope rest)

end

/-- The scope behind a projection. A bare member lies under its own path. -/
def project (mapping : FieldMapping) (scope : Scope) (projection : Expr) :
    Except CompileError Scope :=
  match projection with
  | .member _ _ => do
    let field ← scope.resolveExpr mapping projection
    return .projection (.nested (Dotted.segments field.path) field.shape)
  | e => do return .projection (← shapeOf mapping scope e)

end Scope
end DocQuery
