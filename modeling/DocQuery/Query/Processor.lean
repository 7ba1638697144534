import DocQuery.Log.Entry
import DocQuery.Query.Error
import DocQuery.Query.Tracker
import DocQuery.Text.Quoted

/-!
# Entity processors

A processor sees every entity that a query yields. It is a function of the entity: it gives back
the entity, possibly changed, the effects it asks for, and the failure it raises, if any. A
processor that keeps a state of its own is not one of these. The processors of a chain run in
the order in which they were registered; the first failure stops them. Once a chain is sealed,
none is added.
-/
namespace DocQuery

/-- What a processor asks for besides the entity. -/
inductive Effect where
  | record (line : String)
  | track (entry : TrackedEntry)
  deriving Repr

/-- What a processor makes of an entity. -/
structure Outcome (τ : Type) where
  entity : τ
  effects : List Effect := []
  failure : Option ProcessorFailure := none

/-- A function on entities, and the name that it is known by in the log. -/
structure Processor (τ : Type) where
  name : String
  run : τ → Outcome τ

structure Processed (τ : Type) where
  entity : τ
  effects : List Effect := []
  entries : List Log.Entry := []
  failure : Option ProcessorFailure := none

namespace Processor

variable {τ : Type}

/-- The entry for a failure of a processor. The failure may carry another name. -/
def failed (processor : Processor τ) (failure : ProcessorFailure) : Log.Entry :=
  .ofEvent .processorFailed
    [("code", ProcessorFailure.code), ("processor", processor.name), ("reason", failure.reason)]

/-- Runs processors in order, up to the first that fails. -/
def runAll : List (Processor τ) → τ → Processed τ
  | [], entity => { entity }
  | processor :: rest, entity =>
    let outcome := processor.run entity
    match outcome.failure with
    | some failure =>
      { entity := outcome.entity
        effects := outcome.effects
        entries := [processor.failed failure]
        failure := some failure }
    | none =>
      let others := runAll rest outcome.entity
      { others with effects := outcome.effects ++ others.effects }

/-- The text in which messages show a processor made of a function. -/
def debugText (name : String) : String :=
  "FnProcessor \x7b name: " ++ Quoted.quote name ++ " \x7d"

end Processor

structure ProcessorChain (τ : Type) where
  processors : List (Processor τ) := []
  isSealed : Bool := false

namespace ProcessorChain

variable {τ : Type}

def empty : ProcessorChain τ := {}

/-- Adds a processor at the end, unless the chain is sealed. -/
def add (chain : ProcessorChain τ) (processor : Processor τ) :
    Except QueryError (ProcessorChain τ) :=
  if chain.isSealed then .error .chainSealed
  else .ok { chain with processors := chain.processors ++ [processor] }

def registered (processor : Processor τ) : Log.Entry :=
  .ofEvent .processorRegistered [("processor", processor.name)]

def close (chain : ProcessorChain τ) : ProcessorChain τ :=
  { chain with isSealed := true }

@[simp] theorem close_close (chain : ProcessorChain τ) : chain.close.close = chain.close := rfl

def names (chain : ProcessorChain τ) : List String :=
  chain.processors.map Processor.name

def debugText (chain : ProcessorChain τ) : String :=
  "EntityProcessorChain \x7b processors: " ++ Quoted.quoteList chain.names ++
    ", sealed: " ++ (if chain.isSealed then "true" else "false") ++ " \x7d"

end ProcessorChain

/-- The lines that processors recorded and the snapshots they took. -/
structure Journal where
  recorded : List String := []
  tracker : Tracker := {}
  deriving Repr

namespace Journal

def apply (journal : Journal) : Effect → Journal
  | .record line => { journal with recorded := journal.recorded ++ [line] }
  | .track entry => { journal with tracker := journal.tracker.track entry }

def applyAll (journal : Journal) (effects : List Effect) : Journal :=
  effects.foldl apply journal

end Journal
end DocQuery
