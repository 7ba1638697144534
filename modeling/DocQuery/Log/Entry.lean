import DocQuery.Document.Printer

/-!
# Log entries

An entry is an event with a severity and named fields. Its line is an object that
starts with the event and the severity; the fields follow in the order of their
names, and of fields with one name the last counts.
-/
namespace DocQuery.Log

/-- How severe an entry is, from the least to the most. -/
inductive Severity where
  | trace | info | warn | error
  deriving DecidableEq, Repr

namespace Severity

def name : Severity → String
  | .trace => "TRACE"
  | .info => "INFO"
  | .warn => "WARN"
  | .error => "ERROR"

def rank : Severity → Nat
  | .trace => 0
  | .info => 1
  | .warn => 2
  | .error => 3

end Severity

/-- What happens to queries. -/
inductive Event where
  | pipelineCompiled
  | compileFailed
  | queryExecuted
  | executionFailed
  | enumerationComplete
  | processorRegistered
  | processorFailed
  deriving DecidableEq, Repr

namespace Event

def name : Event → String
  | .pipelineCompiled => "PIPELINE_COMPILED"
  | .compileFailed => "TRANSLATION_FAILED"
  | .queryExecuted => "QUERY_EXECUTED"
  | .executionFailed => "EXECUTION_FAILED"
  | .enumerationComplete => "ENUMERATION_COMPLETE"
  | .processorRegistered => "PROCESSOR_REGISTERED"
  | .processorFailed => "PROCESSOR_FAILED"

def isFailure : Event → Bool
  | .compileFailed | .executionFailed | .processorFailed => true
  | _ => false

/-- Failures are warnings, all else is detail. -/
def severity (event : Event) : Severity :=
  if event.isFailure then .warn else .trace

end Event

structure Entry where
  severity : Severity
  event : String
  fields : List (String × String)
  deriving DecidableEq, Repr

namespace Entry

/-- The entry of an event with its own severity. -/
def ofEvent (event : Event) (fields : List (String × String)) : Entry :=
  ⟨event.severity, event.name, fields⟩

def document (entry : Entry) : Json :=
  let sorted := entry.fields.mergeSort fun a b => decide (a.1 ≤ b.1)
  let start : Members := [("event", .str entry.event), ("severity", .str entry.severity.name)]
  .obj (sorted.foldl (fun (members : Members) field => members.insert field.1 (.str field.2)) start)

/-- The text of an entry without the end of the line. -/
def text (entry : Entry) : String :=
  entry.document.render

def render (entry : Entry) : String :=
  entry.text ++ "\n"

end Entry
end DocQuery.Log
