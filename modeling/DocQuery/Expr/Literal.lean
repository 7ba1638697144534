import DocQuery.Document.Json
import DocQuery.Expr.Uuid
import DocQuery.Numeric.Decimal
import DocQuery.Text.Quoted
import DocQuery.Time.Instant

/-!
# Constants of query expressions

A constant has a document form (`Literal.document?`) unless a number that is not
finite occurs in it. Dates, identifiers and object identifiers take the form of
extended values.
-/
namespace DocQuery

inductive Literal where
  | null
  | bool (value : Bool)
  | int (value : Int64)
  | uint (value : UInt64)
  | float (value : Double)
  | string (value : String)
  | date (value : Instant)
  | uuid (value : Uuid)
  | objectId (hex : String)
  | array (items : List Literal)
  deriving Repr

/-- An integer as a caller holds it: in 32 or 64 bits, with or without a sign, or a size,
which has 64 bits. -/
inductive GivenInteger where
  | int32 (value : Int32)
  | int64 (value : Int64)
  | uint32 (value : UInt32)
  | uint64 (value : UInt64)
  | size (value : UInt64)
  deriving DecidableEq, Repr

namespace Literal

inductive Kind where
  | null | bool | int | uint | float | string | date | uuid | objectId | array
  deriving DecidableEq, Repr

def Kind.name : Kind → String
  | .null => "null"
  | .bool => "bool"
  | .int => "int"
  | .uint => "uint"
  | .float => "float"
  | .string => "string"
  | .date => "date"
  | .uuid => "uuid"
  | .objectId => "objectId"
  | .array => "array"

def kind : Literal → Kind
  | .null => .null
  | .bool _ => .bool
  | .int _ => .int
  | .uint _ => .uint
  | .float _ => .float
  | .string _ => .string
  | .date _ => .date
  | .uuid _ => .uuid
  | .objectId _ => .objectId
  | .array _ => .array

/-- An unsigned word: an ordinary integer if it fits one, exact in any case. -/
def ofUnsigned (value : UInt64) : Literal :=
  if FitsSigned value.toNat then .int value.toInt64 else .uint value

def ofInteger : GivenInteger → Literal
  | .int32 value => .int value.toInt64
  | .int64 value => .int value
  | .uint32 value => .int value.toUInt64.toInt64
  | .uint64 value | .size value => ofUnsigned value

/-- The object identifier of 24 hexadecimal digits, in lower case. -/
def objectId? (hex : String) : Option Literal :=
  let digits := hex.toList
  if digits.length = 24 ∧ digits.all fun c => (Hex.digit? c).isSome then
    some (.objectId (String.ofList (digits.map Char.toLower)))
  else none

/-- The count that a constant stands for: an integer that is not negative. -/
def count? : Literal → Option Nat
  | .int value => if 0 ≤ value.toInt then some value.toInt.toNat else none
  | _ => none

/-- An extended value. -/
def wrapped (tag text : String) : Json :=
  .obj [(tag, .str text)]

mutual

/-- The document form, if every number in the constant is finite. -/
def document? : Literal → Option Json
  | .null => some .null
  | .bool value => some (.bool value)
  | .int value => some (.num (.int value.toInt))
  | .uint value => some (.num (.int value.toNat))
  | .float value => if value.isFinite then some (.num (.float value)) else none
  | .string value => some (.str value)
  | .date value => some (wrapped "$date" value.millisText)
  | .uuid value => some (wrapped "$uuid" value.text)
  | .objectId hex => some (wrapped "$oid" hex)
  | .array items => (documents? items).map .arr

def documents? : List Literal → Option (List Json)
  | [] => some []
  | item :: rest =>
    match document? item, documents? rest with
    | some first, some others => some (first :: others)
    | _, _ => none

end

mutual

/-- The form in which messages show a constant. -/
def debugText : Literal → String
  | .null => "Null"
  | .bool value => "Bool(" ++ (if value then "true" else "false") ++ ")"
  | .int value => "Int(" ++ toString value.toInt ++ ")"
  | .uint value => "UInt(" ++ toString value.toNat ++ ")"
  | .float value => "Float(" ++ value.text Double.debugLayout ++ ")"
  | .string value => "String(" ++ Quoted.quote value ++ ")"
  | .date value => "DateTime(" ++ value.exactText ++ ")"
  | .uuid value => "Uuid(" ++ value.text ++ ")"
  | .objectId hex => "ObjectId(" ++ Quoted.quote hex ++ ")"
  | .array items => "Array([" ++ ", ".intercalate (debugTexts items) ++ "])"

def debugTexts : List Literal → List String
  | [] => []
  | item :: rest => debugText item :: debugTexts rest

end

end Literal
end DocQuery
