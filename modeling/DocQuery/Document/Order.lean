import DocQuery.Document.Json

/-!
# Order of documents' values

`compareLike` orders two values of one class: null, Booleans, numbers, strings
and the extended values, which are objects of the single member `$date`, `$uuid`
or `$oid` holding a string. Numbers compare by value, exactly when both fit a
signed 64-bit word and as binary64 numbers otherwise.

`compareForSort` orders all values: first by class, a missing value before all
others, then within the class. Values of a class that has no order of its own
are equal to each other.
-/
namespace DocQuery

namespace Number

/-- The value of an integer that fits a signed word. -/
def signed? : Number → Option Int
  | .int value => if FitsSigned value then some value else none
  | .float _ => none

def compare (a b : Number) : Ordering :=
  match a.signed?, b.signed? with
  | some x, some y => Ord.compare x y
  | _, _ => Ord.compare a.toDouble.orderKey b.toDouble.orderKey

end Number

namespace Json

def extendedTags : List String := ["$date", "$uuid", "$oid"]

/-- The tag and the text of an extended value. -/
def extended? : Json → Option (String × String)
  | .obj [(tag, .str text)] => if tag ∈ extendedTags then some (tag, text) else none
  | _ => none

def isExtended (value : Json) : Bool :=
  value.extended?.isSome

/-- The order of two values of one class that has an order. -/
def compareLike : Json → Json → Option Ordering
  | .null, .null => some .eq
  | .bool a, .bool b => some (compare a b)
  | .num a, .num b => some (a.compare b)
  | .str a, .str b => some (compare a b)
  | a, b =>
    match a.extended?, b.extended? with
    | some (tag, text), some (otherTag, otherText) =>
      if tag = otherTag then some (compare text otherText) else none
    | _, _ => none

/-- The place of a value's class among the classes. -/
def classRank (value : Json) : Nat :=
  match value with
  | .null => 0
  | .bool _ => 1
  | .num _ => 2
  | .str _ => 3
  | .arr _ => 5
  | .obj _ => if value.isExtended then 4 else 6

/-- The order of two values, either of which may be missing. -/
def compareForSort : Option Json → Option Json → Ordering
  | none, none => .eq
  | none, some _ => .lt
  | some _, none => .gt
  | some a, some b =>
    if a.classRank = b.classRank then (a.compareLike b).getD .eq
    else compare a.classRank b.classRank

/-- Equality as conditions see it: numbers by value, all else as whole values. -/
def sameValue : Json → Json → Bool
  | .num a, .num b => a.compare b == .eq
  | a, b => a.equal b

end Json
end DocQuery
