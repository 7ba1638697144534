import DocQuery.Collection.Match
import DocQuery.Collection.Project
import DocQuery.Collection.Sort
import DocQuery.Compile.Stage

/-!
# Evaluating pipelines

The meaning of a pipeline over a list of documents, stage by stage. The first
document that a stage cannot treat fails the pipeline.
-/
namespace DocQuery.Evaluate

def filter (body : Members) : List Json → Except ExecutionError (List Json)
  | [] => .ok []
  | document :: rest => do
    let keep ← Match.holds document body
    let others ← filter body rest
    return if keep then document :: others else others

def projectAll (body : Members) : List Json → Except ExecutionError (List Json)
  | [] => .ok []
  | document :: rest => do
    let first ← Project.project document body
    return first :: (← projectAll body rest)

def bodyMembers (stage : Stage) : Except ExecutionError Members :=
  match stage.body with
  | .obj members => .ok members
  | _ => .error (.malformedStage stage.operator .notADocument)

def bodyCount (stage : Stage) : Except ExecutionError Nat :=
  match stage.body.int? with
  | some n => if 0 ≤ n then .ok n.toNat else .error (.malformedStage stage.operator .notACount)
  | none => .error (.malformedStage stage.operator .notACount)

/-- The documents behind one stage. -/
def applyStage (sorter : Sorter Json) (stage : Stage) (documents : List Json) :
    Except ExecutionError (List Json) :=
  if stage.operator = "$match" then do
    filter (← bodyMembers stage) documents
  else if stage.operator = "$project" then do
    projectAll (← bodyMembers stage) documents
  else if stage.operator = "$sort" then do
    Sort.sort sorter documents (← bodyMembers stage)
  else if stage.operator = "$skip" then do
    return documents.drop (← bodyCount stage)
  else if stage.operator = "$limit" then do
    return documents.take (← bodyCount stage)
  else .error (.unsupportedStage stage.operator)

def run (sorter : Sorter Json) : Pipeline → List Json → Except ExecutionError (List Json)
  | [], documents => .ok documents
  | stage :: rest, documents => do
    run sorter rest (← applyStage sorter stage documents)

end DocQuery.Evaluate
