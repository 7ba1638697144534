import DocQuery.Assoc
import DocQuery.Numeric.Double

/-!
# Documents

A document is a JSON value. Integers and binary64 numbers are different values,
and the members of an object keep the order in which they were first given.
`Json.equal` is the equality of whole values: it ignores the order of members
and takes numbers of different representation as different.
-/
namespace DocQuery

/-- A number of a document: an integer of 64 bits with or without sign, or a
finite binary64 number. -/
inductive Number where
  | int (value : Int)
  | float (value : Double)
  deriving DecidableEq, Repr

inductive Json where
  | null
  | bool (value : Bool)
  | num (value : Number)
  | str (value : String)
  | arr (items : List Json)
  | obj (members : List (String × Json))
  deriving Repr, Inhabited

abbrev Members := Assoc Json

namespace Number

def toDouble : Number → Double
  | .int value => .ofInt value
  | .float value => value

/-- Equality by representation; the two zeros of binary64 are equal. -/
def equal : Number → Number → Bool
  | .int a, .int b => a = b
  | .float a, .float b => a.sameValue b
  | _, _ => false

def isZero : Number → Bool
  | .int value => value = 0
  | .float value => value.magnitude = 0

end Number

namespace Json

mutual

/-- Equality of whole values, without regard to the order of members. -/
def equal : Json → Json → Bool
  | .null, .null => true
  | .bool a, .bool b => a == b
  | .num a, .num b => a.equal b
  | .str a, .str b => a == b
  | .arr xs, .arr ys => equalItems xs ys
  | .obj ms, .obj ns => ms.length == ns.length && equalMembers ms ns
  | _, _ => false

def equalItems : List Json → List Json → Bool
  | [], [] => true
  | x :: xs, y :: ys => x.equal y && equalItems xs ys
  | _, _ => false

/-- Every member has an equal counterpart of its name. -/
def equalMembers : List (String × Json) → List (String × Json) → Bool
  | [], _ => true
  | (name, value) :: rest, others =>
    (match Assoc.get? others name with
      | some other => value.equal other
      | none => false) && equalMembers rest others

end

/-- The members of an object; other values have none. -/
def members? : Json → Option Members
  | .obj ms => some ms
  | _ => none

def isNull : Json → Bool
  | .null => true
  | _ => false

def int? : Json → Option Int
  | .num (.int value) => some value
  | _ => none

def member? (document : Json) (name : String) : Option Json :=
  document.members?.bind (Assoc.get? · name)

end Json
end DocQuery
