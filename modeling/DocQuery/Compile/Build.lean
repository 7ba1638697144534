import DocQuery.Compile.Lowering

/-!
# Compiling a chain of operations

`compile` lowers operations from the first to the last, one stage for each. A
selection changes the scope of the operations behind it. The first operation that
does not lower fails the whole build, and the failure says which one it was.
-/
namespace DocQuery

/-- A compiled chain: its stages, and the scope of what they yield. -/
structure CompiledQuery where
  pipeline : Pipeline
  outputScope : Scope
  deriving Repr

namespace CompiledQuery

/-- The results are still documents of the entity type that is queried. -/
def yieldsEntities (query : CompiledQuery) : Bool :=
  query.outputScope.isEntity

end CompiledQuery

/-- Why a build failed, and at which operation. -/
structure BuildFailure where
  error : CompileError
  operation : OperationKind
  position : Nat
  deriving Repr

structure Compiler where
  rules : RuleSet
  mapping : FieldMapping
  config : Config

namespace Compiler

def scopeAfter (compiler : Compiler) (scope : Scope) : Operation → Except CompileError Scope
  | .select projection => scope.project compiler.mapping projection
  | _ => .ok scope

/-- The stage of an operation in a scope, and the scope behind it. -/
def lower (compiler : Compiler) (scope : Scope) (operation : Operation) :
    Except CompileError (Stage × Scope) := do
  let context : Context := ⟨compiler.mapping, scope, compiler.config⟩
  let stage ← context.stage compiler.rules operation
  return (stage, ← compiler.scopeAfter scope operation)

/-- Compiles the operations from a position on, in the scope there. -/
def compileFrom (compiler : Compiler) (position : Nat) (scope : Scope) :
    List Operation → Except BuildFailure CompiledQuery
  | [] => .ok ⟨[], scope⟩
  | operation :: rest =>
    match compiler.lower scope operation with
    | .error error => .error ⟨error, operation.kind, position⟩
    | .ok (stage, next) =>
      match compileFrom compiler (position + 1) next rest with
      | .error failure => .error failure
      | .ok query => .ok { query with pipeline := stage :: query.pipeline }

def compile (compiler : Compiler) (entityType : String) (operations : List Operation) :
    Except BuildFailure CompiledQuery :=
  compiler.compileFrom 0 (.entity entityType) operations

end Compiler
end DocQuery
