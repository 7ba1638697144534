import DocQuery.Log.Entry

/-!
# Loggers

A logger writes the entries at or above its threshold: errors to one channel and
all others to another.
-/
namespace DocQuery.Log

/-- A logger is its threshold. -/
structure Logger where
  threshold : Severity := .warn
  deriving DecidableEq, Repr

structure Output where
  lines : List String := []
  errorLines : List String := []
  deriving DecidableEq, Repr

namespace Logger

def enabled (logger : Logger) (severity : Severity) : Bool :=
  logger.threshold.rank ≤ severity.rank

/-- The entries that are written, in order. -/
def written (logger : Logger) (entries : List Entry) : List Entry :=
  entries.filter fun entry => logger.enabled entry.severity

def write (logger : Logger) (entries : List Entry) : Output :=
  let written := logger.written entries
  { lines := (written.filter (·.severity ≠ .error)).map Entry.text
    errorLines := (written.filter (·.severity = .error)).map Entry.text }

end Logger
end DocQuery.Log
