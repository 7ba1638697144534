import DocQuery.Document.Token

/-!
# Reading documents

`Json.parse?` reads the one JSON value of a text. A reader goes through the tokens
with a stack of the open containers, one token at a time. A member that is given
twice keeps its first place and its last value.
-/
namespace DocQuery.Json

/-- An open container around the value being read. -/
inductive Frame where
  | items (before : List Json)
  | member (before : Members) (name : String)
  deriving Repr

/-- What the next token may be. -/
inductive Awaiting where
  | value
  | itemOrEnd
  | nameOrEnd
  | name (before : Members)
  | colon (before : Members) (name : String)
  | afterItem (items : List Json)
  | afterMember (members : Members)
  | nothing (read : Json)
  deriving Repr

/-- A place in a text: what may follow, and the open containers. -/
structure Place where
  awaiting : Awaiting
  frames : List Frame
  deriving Repr

namespace Place

/-- The place after a complete value; items are kept last first. -/
def complete (value : Json) : List Frame → Place
  | [] => ⟨.nothing value, []⟩
  | .items before :: frames => ⟨.afterItem (value :: before), frames⟩
  | .member before name :: frames => ⟨.afterMember (before.insert name value), frames⟩

/-- The place after a token that begins a value. -/
def beginValue (frames : List Frame) : Token → Option Place
  | .null => some (complete .null frames)
  | .bool value => some (complete (.bool value) frames)
  | .number (some value) => some (complete (.num value) frames)
  | .text (some value) => some (complete (.str value) frames)
  | .openArray => some ⟨.itemOrEnd, frames⟩
  | .openObject => some ⟨.nameOrEnd, frames⟩
  | _ => none

def advance (place : Place) (token : Token) : Option Place :=
  match place.awaiting, token with
  | .value, token => beginValue place.frames token
  | .itemOrEnd, .closeArray => some (complete (.arr []) place.frames)
  | .itemOrEnd, token => beginValue (.items [] :: place.frames) token
  | .nameOrEnd, .closeObject => some (complete (.obj []) place.frames)
  | .nameOrEnd, .text (some name) => some ⟨.colon [] name, place.frames⟩
  | .name before, .text (some name) => some ⟨.colon before name, place.frames⟩
  | .colon before name, .colon => some ⟨.value, .member before name :: place.frames⟩
  | .afterItem items, .comma => some ⟨.value, .items items :: place.frames⟩
  | .afterItem items, .closeArray => some (complete (.arr items.reverse) place.frames)
  | .afterMember members, .comma => some ⟨.name members, place.frames⟩
  | .afterMember members, .closeObject => some (complete (.obj members) place.frames)
  | _, _ => none

/-- The value read, once nothing more may follow. -/
def result? (place : Place) : Option Json :=
  match place.awaiting with
  | .nothing value => some value
  | _ => none

end Place

def ofTokens? (tokens : List Token) : Option Json :=
  (tokens.foldlM Place.advance ⟨.value, []⟩).bind Place.result?

def parse? (text : String) : Option Json :=
  ofTokens? (Token.ofText text)

end DocQuery.Json
