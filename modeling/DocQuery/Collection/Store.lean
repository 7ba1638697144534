import DocQuery.Collection.Evaluate

/-!
# Stores

A store holds a collection of documents, counts the pipelines it was handed, and
can be made to fail: before anything runs, or after some of the results.
`aggregate` counts in any case and answers with the documents as they are at that
moment.
-/
namespace DocQuery

/-- A failure that a store was given. -/
inductive Failure where
  | onAggregate (reason : String)
  | midStream (after : Nat) (reason : String)
  deriving DecidableEq, Repr

structure Store where
  documents : List Json := []
  executions : Nat := 0
  failure : Option Failure := none
  deriving Repr

/-- The results of a pipeline, in order; an error comes last. -/
abbrev ResultStream := List (Except ExecutionError Json)

namespace Store

def insert (store : Store) (document : Json) : Store :=
  { store with documents := store.documents ++ [document] }

/-- The documents behind a pipeline, whatever failure was given. -/
def evaluate (store : Store) (sorter : Sorter Json) (pipeline : Pipeline) :
    Except ExecutionError (List Json) :=
  Evaluate.run sorter pipeline store.documents

/-- The results of a pipeline under the failure that was given. -/
def results (store : Store) (sorter : Sorter Json) (pipeline : Pipeline) :
    Except ExecutionError ResultStream :=
  match store.failure with
  | some (.onAggregate reason) => .error (.failed reason)
  | some (.midStream after reason) => do
    let documents ← store.evaluate sorter pipeline
    return (documents.take after).map .ok ++ [.error (.failed reason)]
  | none => do return (← store.evaluate sorter pipeline).map .ok

/-- Counts an execution and gives its results. -/
def aggregate (store : Store) (sorter : Sorter Json) (pipeline : Pipeline) :
    Except ExecutionError ResultStream × Store :=
  (store.results sorter pipeline, { store with executions := store.executions + 1 })

/-- The results as a stream: a failure to start is its only item. -/
def streamOf : Except ExecutionError ResultStream → ResultStream
  | .ok results => results
  | .error error => [.error error]

end Store
end DocQuery
