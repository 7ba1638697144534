import DocQuery.Collection.Error
import DocQuery.Collection.Sorter
import DocQuery.Document.Order
import DocQuery.Document.Path

/-!
# Sorting documents

The meaning of `$sort` bodies: a sort by one or more keys, of which later ones decide
between documents that are equal on the earlier ones. Values of all kinds are compared, but not
always as a total order does it, so that the result is left to a sorter.
-/
namespace DocQuery.Sort

/-- A path with the direction it is sorted in. -/
structure Key where
  path : String
  descending : Bool
  deriving DecidableEq, Repr

/-- The keys of a body: every direction is 1 or -1. -/
def keys : Members → Except ExecutionError (List Key)
  | [] => .ok []
  | (path, direction) :: rest => do
    let key ← match direction with
      | .num (.int 1) => pure (Key.mk path false)
      | .num (.int (-1)) => pure (Key.mk path true)
      | _ => throw (.malformedStage "$sort" (.direction path direction))
    return key :: (← keys rest)

def compareBy (key : Key) (a b : Json) : Ordering :=
  let order := Json.compareForSort (a.lookup key.path) (b.lookup key.path)
  if key.descending then order.swap else order

/-- The order of two documents by several keys, the first that decides. -/
def compareByAll : List Key → Json → Json → Ordering
  | [], _, _ => .eq
  | key :: rest, a, b => (compareBy key a b).then (compareByAll rest a b)

/-- The documents in the order of the keys, as a sorter finds it. -/
def sortBy (sorter : Sorter Json) (keys : List Key) (documents : List Json) : List Json :=
  sorter.sort (compareByAll keys) documents

/-- The documents in the order of a body. -/
def sort (sorter : Sorter Json) (documents : List Json) (body : Members) :
    Except ExecutionError (List Json) := do
  return sortBy sorter (← keys body) documents

end DocQuery.Sort
