import DocQuery.Collection.Error
import DocQuery.Compile.Error

/-!
# Query errors

What goes wrong between building a query and reading its results. Only a compile
error is raised before anything reaches the store.
-/
namespace DocQuery

/-- The failure of a processor, under the name that the processor gives itself. -/
structure ProcessorFailure where
  processor : String
  reason : String
  deriving DecidableEq, Repr

namespace ProcessorFailure

def message (failure : ProcessorFailure) : String :=
  "Processor '" ++ failure.processor ++ "' failed: " ++ failure.reason

def code : String := "AERO_PROCESSOR_FAILED"

end ProcessorFailure

/-- What a query fails with. -/
inductive QueryError where
  | compile (cause : CompileError)
  | execution (cause : ExecutionError)
  | processor (cause : ProcessorFailure)
  | materialization (entityType reason : String)
  | chainSealed
  deriving Repr

namespace QueryError

def message : QueryError → String
  | .compile cause => cause.message
  | .execution cause => cause.message
  | .processor cause => cause.message
  | .materialization entityType reason => "Cannot materialize " ++ entityType ++ ": " ++ reason
  | .chainSealed => "Entity processor chain is sealed: enumeration has already started"

def code : QueryError → String
  | .compile cause => cause.code
  | .execution _ => ExecutionError.code
  | .processor _ => ProcessorFailure.code
  | .materialization _ _ => "AERO_MATERIALIZATION_FAILED"
  | .chainSealed => "AERO_PROCESSOR_CHAIN_SEALED"

/-- The error was raised before anything reached the store. -/
def isCompileTime : QueryError → Bool
  | .compile _ => true
  | _ => false

end QueryError
end DocQuery
