import DocQuery.Collection.Error
import DocQuery.Document.Order
import DocQuery.Document.Path
import DocQuery.Document.Sigil

/-!
# Matching documents

The meaning of `$match` bodies. A body holds if all its entries hold; an entry is
a connective over bodies or a condition on the value at a path. A condition is an
object of operators, or a value that the field has to equal. A missing field
equals null, and an array equals whatever one of its items equals.
-/
namespace DocQuery.Match

/-- The field has the value: a missing field has the value null, and an array has
the values of its items as well as its own. -/
def equals (actual : Option Json) (expected : Json) : Bool :=
  match actual with
  | none => expected.isNull
  | some value =>
    value.sameValue expected ||
      match value with
      | .arr items => items.any (·.sameValue expected)
      | _ => false

/-- The field has a value that compares with the bound, in an accepted way. -/
def compares (actual : Option Json) (bound : Json) (accept : Ordering → Bool) : Bool :=
  match actual.bind (·.compareLike bound) with
  | some order => accept order
  | none => false

def malformed (defect : StageDefect) : ExecutionError :=
  .malformedStage "$match" defect

/-- One operator of a condition. -/
def operatorHolds (actual : Option Json) (operator : String) (operand : Json) :
    Except ExecutionError Bool :=
  if operator = "$eq" then .ok (equals actual operand)
  else if operator = "$ne" then .ok (!equals actual operand)
  else if operator = "$gt" then .ok (compares actual operand (· == .gt))
  else if operator = "$gte" then .ok (compares actual operand (· != .lt))
  else if operator = "$lt" then .ok (compares actual operand (· == .lt))
  else if operator = "$lte" then .ok (compares actual operand (· != .gt))
  else if operator = "$in" then
    match operand with
    | .arr candidates => .ok (candidates.any (equals actual))
    | _ => .error (malformed (.notAnArray operator))
  else .error (malformed (.unknownCondition operator))

/-- All operators of a condition, in order, up to the first that fails. -/
def operatorsHold (actual : Option Json) : Members → Except ExecutionError Bool
  | [] => .ok true
  | (operator, operand) :: rest =>
    match operatorHolds actual operator operand with
    | .ok true => operatorsHold actual rest
    | answer => answer

/-- The operators of a condition that is made of operators. -/
def operators? (condition : Json) : Option Members :=
  match condition with
  | .obj members =>
    if !members.isEmpty && members.all (fun member => Sigil.isMarked member.1) &&
        !condition.isExtended then some members
    else none
  | _ => none

def fieldHolds (actual : Option Json) (condition : Json) : Except ExecutionError Bool :=
  match operators? condition with
  | some operators => operatorsHold actual operators
  | none => .ok (equals actual condition)

/-- The connectives of `$match` bodies. -/
inductive Connective where
  | and | or | nor
  deriving DecidableEq, Repr

def Connective.ofName? (name : String) : Option Connective :=
  if name = "$and" then some .and
  else if name = "$or" then some .or
  else if name = "$nor" then some .nor
  else none

def allDocuments (operands : List Json) : Bool :=
  operands.all fun operand => operand.members?.isSome

mutual

/-- All entries of a body, in order, up to the first that fails. -/
def holds (document : Json) : List (String × Json) → Except ExecutionError Bool
  | [] => .ok true
  | (key, condition) :: rest =>
    match entryHolds document key condition with
    | .ok true => holds document rest
    | answer => answer

def entryHolds (document : Json) (key : String) (condition : Json) :
    Except ExecutionError Bool :=
  match Connective.ofName? key, condition with
  | some connective, .arr operands =>
    if allDocuments operands then
      match connective with
      | .and => allHold document operands
      | .or => anyHolds document operands
      | .nor => (anyHolds document operands).map (!·)
    else .error (malformed (.notDocuments key))
  | some _, _ => .error (malformed (.notAnArray key))
  | none, condition =>
    if Sigil.isMarked key then .error (malformed (.unknownConnective key))
    else fieldHolds (document.lookup key) condition

/-- All bodies of a connective, in order, up to the first that fails. -/
def allHold (document : Json) : List Json → Except ExecutionError Bool
  | [] => .ok true
  | .obj body :: rest =>
    match holds document body with
    | .ok true => allHold document rest
    | answer => answer
  | _ :: rest => allHold document rest

/-- Some body of a connective, in order, up to the first that holds. -/
def anyHolds (document : Json) : List Json → Except ExecutionError Bool
  | [] => .ok false
  | .obj body :: rest =>
    match holds document body with
    | .ok false => anyHolds document rest
    | answer => answer
  | _ :: rest => anyHolds document rest

end

end DocQuery.Match
