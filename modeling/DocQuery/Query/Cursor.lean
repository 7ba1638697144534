import DocQuery.Collection.Store
import DocQuery.Query.Processor

/-!
# Cursors

A cursor turns the results of a pipeline into items, one when it is pulled. While
the documents still have the shape of the entity they are decoded and run through
the processors; behind a selection they are handed out as they are. A cursor ends
with the results or with the first error.
-/
namespace DocQuery

inductive Item (τ : Type) where
  | entity (value : τ)
  | projection (document : Json)

/-- An item, or the error in its place. -/
abbrev ItemResult (τ : Type) := Except QueryError (Item τ)

/-- How documents become items. -/
structure Materializer (τ : Type) where
  type : EntityType τ
  yieldsEntities : Bool
  processors : List (Processor τ)

/-- An item, with the entries and the effects of making it. -/
structure Made (τ : Type) where
  item : ItemResult τ
  entries : List Log.Entry := []
  effects : List Effect := []

def ExecutionError.entry (error : ExecutionError) : Log.Entry :=
  .ofEvent .executionFailed [("code", ExecutionError.code), ("message", error.message)]

namespace Materializer

variable {τ : Type}

/-- The item of a document. -/
def materialize (m : Materializer τ) (document : Json) : Made τ :=
  if m.yieldsEntities then
    match m.type.decode document with
    | .error reason => { item := .error (.materialization m.type.name reason) }
    | .ok entity =>
      let processed := Processor.runAll m.processors entity
      { item := match processed.failure with
          | none => .ok (.entity processed.entity)
          | some failure => .error (.processor failure)
        entries := processed.entries
        effects := processed.effects }
  else { item := .ok (.projection document) }

def make (m : Materializer τ) : Except ExecutionError Json → Made τ
  | .ok document => m.materialize document
  | .error error => { item := .error (.execution error), entries := [error.entry] }

end Materializer

/-- The state that a query reports of its enumerations. -/
inductive QueryState where
  | unmaterialized | enumerating | exhausted | faulted
  deriving DecidableEq, Repr

def QueryState.name : QueryState → String
  | .unmaterialized => "Unmaterialized"
  | .enumerating => "Enumerating"
  | .exhausted => "Exhausted"
  | .faulted => "Faulted"

/-- What a pull does to the state of the query it belongs to. -/
inductive Transition where
  | keep
  | become (state : QueryState)
  /-- a query that is still enumerating is exhausted -/
  | settle
  deriving DecidableEq, Repr

def Transition.apply : Transition → QueryState → QueryState
  | .keep, state => state
  | .become state, _ => state
  | .settle, state => if state = .enumerating then .exhausted else state

/-- What a pull gives, and what is left to pull from. -/
structure Pulled (τ σ : Type) where
  item : Option (ItemResult τ)
  rest : σ
  transition : Transition := .keep
  entries : List Log.Entry := []
  effects : List Effect := []

/-- A cursor over the results of one execution. -/
structure Cursor (τ : Type) where
  materializer : Materializer τ
  remaining : ResultStream
  yielded : Nat := 0
  done : Bool := false

namespace Cursor

variable {τ : Type}

def completed (cursor : Cursor τ) : Log.Entry :=
  .ofEvent .enumerationComplete
    [("entity", cursor.materializer.type.name), ("yielded", toString cursor.yielded)]

def next (cursor : Cursor τ) : Pulled τ (Cursor τ) :=
  if cursor.done then { item := none, rest := cursor }
  else
    match cursor.remaining with
    | [] => { item := none, rest := { cursor with done := true }, entries := [cursor.completed] }
    | result :: remaining =>
      let made := cursor.materializer.make result
      let rest := match made.item with
        | .ok _ => { cursor with remaining, yielded := cursor.yielded + 1 }
        | .error _ => { cursor with remaining, done := true }
      { item := some made.item, rest, entries := made.entries, effects := made.effects }

end Cursor
end DocQuery
