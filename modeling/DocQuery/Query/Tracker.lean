import DocQuery.Entity.Basic

/-!
# Change tracking

A tracker keeps one snapshot for each entity type and key, ordered by type and
then by key. An entity is modified if its document differs from the snapshot under
its key.
-/
namespace DocQuery

/-- The document of an entity as it was tracked. -/
structure TrackedEntry where
  entityType : String
  key : String
  snapshot : Json
  deriving Repr

namespace TrackedEntry

/-- The order of entries: by type, then by key. -/
def compareKeys (a b : TrackedEntry) : Ordering :=
  (compare a.entityType b.entityType).then (compare a.key b.key)

end TrackedEntry

inductive EntryState where
  | unchanged | modified
  deriving DecidableEq, Repr

/-- The snapshots, in ascending order of their keys. -/
structure Tracker where
  entries : List TrackedEntry := []
  deriving Repr

namespace Tracker

/-- Puts an entry at its place, over an earlier one of its key. -/
def place (entry : TrackedEntry) : List TrackedEntry → List TrackedEntry
  | [] => [entry]
  | first :: rest =>
    match entry.compareKeys first with
    | .lt => entry :: first :: rest
    | .eq => entry :: rest
    | .gt => first :: place entry rest

def track (tracker : Tracker) (entry : TrackedEntry) : Tracker :=
  ⟨place entry tracker.entries⟩

def get? (tracker : Tracker) (entityType key : String) : Option TrackedEntry :=
  tracker.entries.find? fun entry => entry.entityType = entityType ∧ entry.key = key

/-- How an entity relates to its snapshot, if it has one. -/
def stateOf {τ : Type} (tracker : Tracker) (type : EntityType τ) (entity : τ) :
    Option EntryState := do
  let key ← type.key entity
  let entry ← tracker.get? type.name key
  return if (type.encode entity).equal entry.snapshot then .unchanged else .modified

def isModified {τ : Type} (tracker : Tracker) (type : EntityType τ) (entity : τ) : Bool :=
  tracker.stateOf type entity = some .modified

end Tracker
end DocQuery
