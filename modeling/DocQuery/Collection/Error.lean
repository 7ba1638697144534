import DocQuery.Document.Printer

/-!
# Execution errors

Why a collection does not answer a pipeline: it was made to fail, a stage is not
known, or the body of a stage is malformed.
-/
namespace DocQuery

/-- What is wrong with the body of a stage. -/
inductive StageDefect where
  | notADocument
  | notACount
  | notAnArray (operator : String)
  | notDocuments (operator : String)
  | unknownConnective (operator : String)
  | unknownCondition (operator : String)
  | unknownComputation (operator : String)
  | exclusion (path : String)
  | notOneArgument (operator : String)
  | notTwoArguments (operator : String)
  | direction (path : String) (given : Json)
  deriving Repr

def StageDefect.message : StageDefect → String
  | .notADocument => "expected a document"
  | .notACount => "expected a non-negative integer"
  | .notAnArray operator => operator ++ " expects an array"
  | .notDocuments operator => operator ++ " expects documents"
  | .unknownConnective operator => "unsupported top-level operator " ++ operator
  | .unknownCondition operator => "unsupported query operator " ++ operator
  | .unknownComputation operator => "unsupported expression operator " ++ operator
  | .exclusion path => "exclusion of '" ++ path ++ "' in an inclusion projection"
  | .notOneArgument operator => operator ++ " expects one argument"
  | .notTwoArguments operator => operator ++ " expects two arguments"
  | .direction path given =>
    "direction for '" ++ path ++ "' must be 1 or -1, got " ++ given.render

/-- Why a collection does not answer a pipeline. -/
inductive ExecutionError where
  | failed (reason : String)
  | unsupportedStage (operator : String)
  | malformedStage (stage : String) (defect : StageDefect)
  deriving Repr

namespace ExecutionError

def message : ExecutionError → String
  | .failed reason => "Execution failed: " ++ reason
  | .unsupportedStage operator => "Unsupported stage '" ++ operator ++ "'"
  | .malformedStage stage defect => "Malformed stage '" ++ stage ++ "': " ++ defect.message

def code : String := "AERO_EXECUTION_FAILED"

end ExecutionError
end DocQuery
