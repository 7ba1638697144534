import DocQuery.Document.Printer
import DocQuery.Text.Quoted

/-!
# Records

The decoding of documents by a schema. An object is decoded member by member in
the document's order; unknown members are passed over, the first member that does
not fit is reported, and fields that are missing and have no default are reported
after that in the schema's order. An array is decoded field by field. The result
has all fields in the schema's order.
-/
namespace DocQuery.Record

/-- The schema of a value. -/
inductive Schema where
  | text
  | integer
  | flag
  | optional (inner : Schema)
  | record (name : String) (fields : List (String × Schema)) (defaults : List (String × Json))
  deriving Repr

inductive Fault where
  | missingField (name : String)
  | wrongType (found : Json) (expected : String)
  | integerRange (found : Int)
  | tooFew (found : Nat) (record : String) (fields : Nat)
  | tooMany (found : Nat)
  deriving Repr

/-- The words for the value that was found. -/
def describe : Json → String
  | .null => "null"
  | .bool value => "boolean `" ++ (if value then "true" else "false") ++ "`"
  | .num (.int value) => "integer `" ++ String.ofList (intText value) ++ "`"
  | .num (.float value) => "floating point `" ++ value.text Double.documentLayout ++ "`"
  | .str text => "string " ++ Quoted.quote text
  | .arr _ => "sequence"
  | .obj _ => "map"

def Fault.message : Fault → String
  | .missingField name => "missing field `" ++ name ++ "`"
  | .wrongType found expected => "invalid type: " ++ describe found ++ ", expected " ++ expected
  | .integerRange found =>
    "invalid value: " ++ describe (.num (.int found)) ++ ", expected i64"
  | .tooFew found record fields =>
    "invalid length " ++ toString found ++ ", expected struct " ++ record ++ " with " ++
      toString fields ++ (if fields = 1 then " element" else " elements")
  | .tooMany found =>
    "invalid length " ++ toString found ++ ", expected fewer elements in array"

abbrev Decoder := Json → Except Fault Json

def decodeText : Decoder
  | .str text => .ok (.str text)
  | found => .error (.wrongType found "a string")

def decodeInteger : Decoder
  | .num (.int value) =>
    if FitsSigned value then .ok (.num (.int value))
    else .error (.integerRange value)
  | found => .error (.wrongType found "i64")

def decodeFlag : Decoder
  | .bool value => .ok (.bool value)
  | found => .error (.wrongType found "a boolean")

def decodeOptional (inner : Decoder) : Decoder
  | .null => .ok .null
  | found => inner found

/-- The known members of an object, decoded in the document's order. -/
def decodeMembers (decoders : Assoc Decoder) : Members → Except Fault Members
  | [] => .ok []
  | (name, value) :: rest =>
    match decoders.get? name with
    | some decoder => do
      let decoded ← decoder value
      return (name, decoded) :: (← decodeMembers decoders rest)
    | none => decodeMembers decoders rest

/-- All fields in the schema's order, from the decoded members or the defaults. -/
def complete (defaults : Members) (decoded : Members) :
    Assoc Decoder → Except Fault Members
  | [] => .ok []
  | (name, _) :: rest =>
    match (decoded.get? name).or (defaults.get? name) with
    | some value => do return (name, value) :: (← complete defaults decoded rest)
    | none => .error (.missingField name)

/-- All fields from the items of an array, then from the defaults. -/
def decodeItems (record : String) (fields : Nat) (defaults : Members) (position : Nat) :
    Assoc Decoder → List Json → Except Fault Members
  | [], [] => .ok []
  | [], extra => .error (.tooMany (position + extra.length))
  | (name, decoder) :: rest, item :: items => do
    let decoded ← decoder item
    return (name, decoded) :: (← decodeItems record fields defaults (position + 1) rest items)
  | (name, _) :: rest, [] =>
    match defaults.get? name with
    | some value => do
      return (name, value) :: (← decodeItems record fields defaults (position + 1) rest [])
    | none => .error (.tooFew position record fields)

def decodeRecord (name : String) (decoders : Assoc Decoder) (defaults : Members) : Decoder
  | .obj members => do
    let decoded ← decodeMembers decoders members
    return .obj (← complete defaults decoded decoders)
  | .arr items => do
    return .obj (← decodeItems name decoders.length defaults 0 decoders items)
  | found => .error (.wrongType found ("struct " ++ name))

mutual

def decoder : Schema → Decoder
  | .text => decodeText
  | .integer => decodeInteger
  | .flag => decodeFlag
  | .optional inner => decodeOptional (decoder inner)
  | .record name fields defaults => decodeRecord name (decoders fields) defaults

def decoders : List (String × Schema) → Assoc Decoder
  | [] => []
  | (name, schema) :: rest => (name, decoder schema) :: decoders rest

end

end DocQuery.Record
