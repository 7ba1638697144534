import DocQuery.Query.Cursor

/-!
# Enumerations

An enumeration is what a query's results are pulled from: a bare cursor, an
iteration, which keeps the state of its query up to date, or a stream, which does
so too and delivers failures to start as its only item.

After an error a stream makes one more item, if there is one, before it ends; that
item is not handed out, but its entries and effects are there.
-/
namespace DocQuery

/-- The outcome of preparing a query: it does not compile, or the store answers. -/
abbrev Start (τ : Type) := Except QueryError (Materializer τ × Except ExecutionError ResultStream)

/-- An iteration: an error that waits to be pulled, or a cursor. -/
structure Iteration (τ : Type) where
  pending : Option QueryError := none
  cursor : Option (Cursor τ) := none

/-- Where a stream stands. -/
inductive Stream (τ : Type) where
  /-- the error that the query does not compile with is to come -/
  | refused (error : QueryError)
  /-- results are to come -/
  | running (materializer : Materializer τ) (remaining : ResultStream)
  /-- an error has been handed out -/
  | faulted (materializer : Materializer τ) (remaining : ResultStream)
  /-- nothing is to come but the end -/
  | ending
  | ended

/-- What results are pulled from. -/
inductive Enumeration (τ : Type) where
  | cursor (cursor : Cursor τ)
  | iteration (iteration : Iteration τ)
  | stream (stream : Stream τ)

variable {τ : Type}

namespace Cursor

def ofStart : Start τ → Except QueryError (Cursor τ)
  | .error error => .error error
  | .ok (_, .error error) => .error (.execution error)
  | .ok (materializer, .ok results) => .ok { materializer, remaining := results }

end Cursor

/-- The entries for a start that the store refused. -/
def startEntries : Start τ → List Log.Entry
  | .ok (_, .error error) => [error.entry]
  | _ => []

namespace Iteration

def ofStart (start : Start τ) : Iteration τ :=
  match Cursor.ofStart start with
  | .ok cursor => { cursor := some cursor }
  | .error error => { pending := some error }

def startState (start : Start τ) : QueryState :=
  match Cursor.ofStart start with
  | .ok _ => .enumerating
  | .error _ => .faulted

def next (iteration : Iteration τ) : Pulled τ (Iteration τ) :=
  match iteration.pending, iteration.cursor with
  | some error, cursor =>
    { item := some (.error error), rest := { cursor }, transition := .become .faulted }
  | none, none => { item := none, rest := iteration }
  | none, some cursor =>
    let pulled := cursor.next
    let (rest, transition) : Iteration τ × Transition :=
      match pulled.item with
      | some (.ok _) => ({ cursor := some pulled.rest }, .keep)
      | some (.error _) => ({}, .become .faulted)
      | none => ({}, .become .exhausted)
    { pulled with rest, transition }

end Iteration

namespace Stream

def ofStart : Start τ → Stream τ
  | .error error => .refused error
  | .ok (materializer, results) => .running materializer (Store.streamOf results)

def finish : Pulled τ (Stream τ) :=
  { item := none, rest := .ended, transition := .settle }

def next : Stream τ → Pulled τ (Stream τ)
  | .refused error =>
    { item := some (.error error), rest := .ending, transition := .become .faulted }
  | .running _ [] => finish
  | .running materializer (result :: remaining) =>
    let made := materializer.make result
    let (rest, transition) : Stream τ × Transition :=
      match made.item with
      | .ok _ => (.running materializer remaining, .keep)
      | .error _ => (.faulted materializer remaining, .become .faulted)
    { item := some made.item, rest, transition, entries := made.entries, effects := made.effects }
  | .faulted _ [] => finish
  | .faulted materializer (result :: _) =>
    let made := materializer.make result
    { finish with entries := made.entries, effects := made.effects }
  | .ending => finish
  | .ended => { item := none, rest := .ended }

end Stream

namespace Enumeration

def next : Enumeration τ → Pulled τ (Enumeration τ)
  | .cursor c => let pulled := c.next; { pulled with rest := .cursor pulled.rest }
  | .iteration i => let pulled := i.next; { pulled with rest := .iteration pulled.rest }
  | .stream s => let pulled := s.next; { pulled with rest := .stream pulled.rest }

/-- The results that have not been pulled. -/
def remaining : Enumeration τ → ResultStream
  | .cursor c => c.remaining
  | .iteration i => (i.cursor.map Cursor.remaining).getD []
  | .stream (.running _ remaining) => remaining
  | .stream (.faulted _ remaining) => remaining
  | .stream _ => []

end Enumeration

/-- What draining an enumeration gives: its items, the state it leaves its query
in, and all entries and effects. -/
structure Drained (τ : Type) where
  items : List (ItemResult τ)
  state : QueryState
  entries : List Log.Entry
  effects : List Effect

namespace Enumeration

/-- Pulls at most the given number of times, until the end or an item to stop at. -/
def pullAll (stop : ItemResult τ → Bool) : Nat → Enumeration τ → QueryState → Drained τ
  | 0, _, state => ⟨[], state, [], []⟩
  | pulls + 1, enumeration, state =>
    let pulled := enumeration.next
    let state := pulled.transition.apply state
    match pulled.item with
    | none => ⟨[], state, pulled.entries, pulled.effects⟩
    | some item =>
      if stop item then ⟨[item], state, pulled.entries, pulled.effects⟩
      else
        let others := pullAll stop pulls pulled.rest state
        { others with
          items := item :: others.items
          entries := pulled.entries ++ others.entries
          effects := pulled.effects ++ others.effects }

/-- Pulls until the end or an item to stop at. Each result is pulled once, an error
to start takes one pull, and so does the end. -/
def drain (stop : ItemResult τ → Bool) (enumeration : Enumeration τ) (state : QueryState) :
    Drained τ :=
  enumeration.pullAll stop (enumeration.remaining.length + 2) state

end Enumeration

def isFailed : ItemResult τ → Bool
  | .ok _ => false
  | .error _ => true

/-- The entity of an item, or the error of a query that should yield entities. -/
def entityOf (type : EntityType τ) : ItemResult τ → Except QueryError τ
  | .ok (.entity value) => .ok value
  | .ok (.projection _) => .error (.materialization type.name "query yields projected documents")
  | .error error => .error error

/-- The document of an item, or the error of a query that should be projected. -/
def projectionOf (type : EntityType τ) : ItemResult τ → Except QueryError Json
  | .ok (.projection document) => .ok document
  | .ok (.entity _) =>
    .error (.materialization type.name "query yields entities, not projections")
  | .error error => .error error

end DocQuery
