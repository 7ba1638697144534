import DocQuery.Compile.Rule

/-!
# Compile errors

Why an operation cannot be compiled. Every cause is a constructor; `message`
gives its words and `code` the stable code of its family.
-/
namespace DocQuery

/-- Expressions that have no lowered form where they stand. -/
inductive Unsupported where
  | emptyChain
  | notAField (kind : Expr.Kind)
  | notAPredicate (kind : Expr.Kind)
  | notComputable (kind : Expr.Kind)
  | notASortKey (kind : Expr.Kind)
  | notSelectable (kind : Expr.Kind)
  | twoConstants
  | noConstant (left right : Expr.Kind)
  | unknownMethod (method : String)
  | containsOperands (target : Expr.Kind) (arguments : Nat)
  | duplicateMember (name : String)
  | emptyConstruction
  | nonFiniteConstant
  | wrongRule (rule : Rule) (kind : OperationKind)
  | noRule (kind : OperationKind)
  deriving DecidableEq, Repr

def Unsupported.message : Unsupported → String
  | .emptyChain => "empty member chain"
  | .notAField kind => kind.describe ++ " where a field was expected"
  | .notAPredicate kind => kind.describe ++ " as predicate"
  | .notComputable kind => kind.describe ++ " in projection"
  | .notASortKey kind => kind.describe ++ " as sort key"
  | .notSelectable kind => kind.describe ++ " as Select projection"
  | .twoConstants => "comparison between two constants"
  | .noConstant left right =>
    "comparison between " ++ left.describe ++ " and " ++ right.describe
  | .unknownMethod method => "method call `" ++ method ++ "`"
  | .containsOperands target arguments =>
    "`contains` on " ++ target.describe ++ " with " ++ toString arguments ++ " argument(s)"
  | .duplicateMember name => "duplicate member `" ++ name ++ "` in object construction"
  | .emptyConstruction => "empty object construction"
  | .nonFiniteConstant => "non-finite float constant"
  | .wrongRule rule kind => rule.name ++ " cannot translate " ++ kind.name
  | .noRule kind => "no translator registered for " ++ kind.name

/-- Counts that are no count. -/
inductive CountFault where
  | tooLarge (count : UInt64)
  | notACount (given : Literal)
  | notConstant (kind : Expr.Kind)
  deriving Repr

/-- The words for a fault of a count, after the name of the operation. -/
def CountFault.message : CountFault → String
  | .tooLarge count => "count " ++ toString count.toNat ++ " exceeds i64::MAX"
  | .notACount given => "count must be a non-negative integer, got " ++ given.debugText
  | .notConstant kind => "count must be a constant, got " ++ kind.describe

/-- Why an operation cannot be compiled. -/
inductive CompileError where
  | unsupported (cause : Unsupported)
  | unknownField (owner member : String)
  | invalidCount (operation : OperationKind) (fault : CountFault)
  deriving Repr

namespace CompileError

def message : CompileError → String
  | .unsupported cause => "Unsupported expression: " ++ cause.message
  | .unknownField owner member => "Unknown field '" ++ member ++ "' on '" ++ owner ++ "'"
  | .invalidCount operation fault =>
    "Invalid argument: " ++ operation.name ++ " " ++ fault.message

def code : CompileError → String
  | .unsupported _ => "AERO_TRANSLATION_UNSUPPORTED_EXPRESSION"
  | .unknownField _ _ => "AERO_TRANSLATION_UNKNOWN_FIELD"
  | .invalidCount _ _ => "AERO_TRANSLATION_INVALID_ARGUMENT"

end CompileError
end DocQuery
