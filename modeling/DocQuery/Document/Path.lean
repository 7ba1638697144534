import DocQuery.Document.Json
import DocQuery.Text.Dotted

/-!
# Dotted paths into documents

`lookup` reads the value at a path through nested objects; `setPath` writes one,
making objects on the way and replacing what is no object. Reading what was
written gives it back (`getIn_setIn`).
-/
namespace DocQuery

namespace Json

/-- The value reached through a sequence of member names. -/
def getIn : Json → List String → Option Json
  | value, [] => some value
  | .obj members, name :: rest => (Assoc.get? members name).bind (getIn · rest)
  | _, _ :: _ => none

def lookup (document : Json) (path : String) : Option Json :=
  document.getIn (Dotted.segments path)

/-- The members of an object, none for any other value. -/
def membersOrEmpty : Option Json → Members
  | some (.obj members) => members
  | _ => []

end Json

namespace Members

/-- Writes a value below a first name and the names after it. -/
def setIn (ms : Members) (name : String) : List String → Json → Members
  | [], value => ms.insert name value
  | next :: rest, value =>
    ms.insert name (.obj (setIn (Json.membersOrEmpty (ms.get? name)) next rest value))

def setPath (ms : Members) (path : String) (value : Json) : Members :=
  match Dotted.segments path with
  | [] => ms
  | name :: rest => ms.setIn name rest value

/-- What was written is read back. -/
theorem getIn_setIn (ms : Members) (name : String) (rest : List String) (value : Json) :
    (Json.obj (ms.setIn name rest value)).getIn (name :: rest) = some value := by
  induction rest generalizing ms name with
  | nil => simp [setIn, Json.getIn, Assoc.get?_insert_self]
  | cons next rest ih =>
    rw [setIn, Json.getIn, Assoc.get?_insert_self]
    exact ih _ _

end Members
end DocQuery
