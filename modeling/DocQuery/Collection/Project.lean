import DocQuery.Collection.Error
import DocQuery.Document.Order
import DocQuery.Document.Path
import DocQuery.Document.Sigil

/-!
# Projecting documents

The meaning of `$project` bodies. A member of a body is a flag that includes the
field at its path, or a form that is evaluated: a reference to a field, an
operator, a nested document of forms, or a value that stands for itself. The
identity `_id` is included unless the body says otherwise.
-/
namespace DocQuery.Project

def malformed (defect : StageDefect) : ExecutionError :=
  .malformedStage "$project" defect

/-- A value counts as true: not null, not false, not zero. -/
def isTruthy : Json → Bool
  | .null => false
  | .bool value => value
  | .num value => !value.isZero
  | _ => true

/-- An argument counts as true; a missing one does not. -/
def argumentIsTruthy (argument : Option Json) : Bool :=
  argument.any isTruthy

/-- Two arguments are the same whole value, or both missing. -/
def sameArgument : Option Json → Option Json → Bool
  | none, none => true
  | some a, some b => a.equal b
  | _, _ => false

/-- The comparisons of computed values. -/
def comparison? (operator : String) : Option (Option Json → Option Json → Bool) :=
  if operator = "$eq" then
    some fun a b => Json.compareForSort a b == .eq && sameArgument a b
  else if operator = "$ne" then some fun a b => !sameArgument a b
  else if operator = "$gt" then some fun a b => Json.compareForSort a b == .gt
  else if operator = "$gte" then some fun a b => Json.compareForSort a b != .lt
  else if operator = "$lt" then some fun a b => Json.compareForSort a b == .lt
  else if operator = "$lte" then some fun a b => Json.compareForSort a b != .gt
  else none

/-- The value of an operator on its arguments. -/
def applyOperator (operator : String) (arguments : List (Option Json)) :
    Except ExecutionError Bool :=
  if operator = "$and" then .ok (arguments.all argumentIsTruthy)
  else if operator = "$or" then .ok (arguments.any argumentIsTruthy)
  else if operator = "$not" then
    match arguments with
    | [argument] => .ok (!argumentIsTruthy argument)
    | _ => .error (malformed (.notOneArgument operator))
  else
    match comparison? operator, arguments with
    | some compare, [left, right] => .ok (compare left right)
    | some _, _ => .error (malformed (.notTwoArguments operator))
    | none, _ => .error (malformed (.unknownComputation operator))

mutual

/-- The value of a form; a reference to a missing field has none. -/
def evaluate (document : Json) : Json → Except ExecutionError (Option Json)
  | .str text =>
    match Sigil.strip? text with
    | some path => .ok (document.lookup path)
    | none => .ok (some (.str text))
  | .obj [(name, operand)] =>
    if (Json.obj [(name, operand)]).isExtended then .ok (some (.obj [(name, operand)]))
    else if Sigil.isMarked name then
      if name = "$literal" then .ok (some operand)
      else
        match operand with
        | .arr arguments => do
          let values ← evaluateArguments document arguments
          return some (.bool (← applyOperator name values))
        | _ => .error (malformed (.notAnArray name))
    else do
      match ← evaluate document operand with
      | some value => return some (.obj [(name, value)])
      | none => return some (.obj [])
  | .obj members => do return some (.obj (← evaluateMembers document members))
  | value => .ok (some value)

def evaluateArguments (document : Json) : List Json → Except ExecutionError (List (Option Json))
  | [] => .ok []
  | argument :: rest => do
    let value ← evaluate document argument
    return value :: (← evaluateArguments document rest)

/-- The members of a nested document of forms that have a value. -/
def evaluateMembers (document : Json) : List (String × Json) → Except ExecutionError Members
  | [] => .ok []
  | (name, form) :: rest => do
    match ← evaluate document form with
    | some value => return (name, value) :: (← evaluateMembers document rest)
    | none => evaluateMembers document rest

end

/-- The output after one member of a body. -/
def projectMember (document : Json) (output : Members) (path : String) (form : Json) :
    Except ExecutionError Members :=
  let write (value : Option Json) : Members :=
    match value with
    | some value => output.setPath path value
    | none => output
  match form with
  | .num _ | .bool _ =>
    if isTruthy form then .ok (write (document.lookup path))
    else if path = "_id" then .ok output
    else .error (malformed (.exclusion path))
  | form => do return write (← evaluate document form)

def projectMembers (document : Json) (output : Members) : Members → Except ExecutionError Members
  | [] => .ok output
  | (path, form) :: rest => do
    projectMembers document (← projectMember document output path form) rest

/-- The identity that a body includes without naming it. -/
def implicitIdentity (document : Json) (body : Members) : Members :=
  if body.has "_id" then []
  else
    match document.lookup "_id" with
    | some identity => [("_id", identity)]
    | none => []

/-- The document that a body makes of a document. -/
def project (document : Json) (body : Members) : Except ExecutionError Json := do
  return .obj (← projectMembers document (implicitIdentity document body) body)

end DocQuery.Project
