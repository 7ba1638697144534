import DocQuery.Document.Json
import DocQuery.Numeric.Decimal
import DocQuery.Text.Hex

/-!
# Compact document text

The text of a JSON value without spaces, members in their order. Strings escape
the quote, the backslash and the control characters below U+0020; every other
character stands for itself.
-/
namespace DocQuery

def intText (n : Int) : List Char :=
  if n < 0 then '-' :: Nat.toDigits 10 n.natAbs else Nat.toDigits 10 n.natAbs

def Number.chars : Number → List Char
  | .int value => intText value
  | .float value => (value.text Double.documentLayout).toList

namespace Json

def escapeChar (c : Char) : List Char :=
  if c = '"' then ['\\', '"']
  else if c = '\\' then ['\\', '\\']
  else if c = '\x08' then ['\\', 'b']
  else if c = '\x0c' then ['\\', 'f']
  else if c = '\n' then ['\\', 'n']
  else if c = '\r' then ['\\', 'r']
  else if c = '\t' then ['\\', 't']
  else if c.toNat < 0x20 then '\\' :: 'u' :: Hex.fixed 4 c.toNat
  else [c]

def stringChars (s : String) : List Char :=
  '"' :: (s.toList.flatMap escapeChar ++ ['"'])

mutual

def chars : Json → List Char
  | .null => ['n', 'u', 'l', 'l']
  | .bool true => ['t', 'r', 'u', 'e']
  | .bool false => ['f', 'a', 'l', 's', 'e']
  | .num value => value.chars
  | .str value => stringChars value
  | .arr [] => ['[', ']']
  | .arr (item :: rest) => '[' :: (item.chars ++ moreItems rest)
  | .obj [] => ['{', '}']
  | .obj ((name, value) :: rest) =>
    '{' :: (stringChars name ++ ':' :: (value.chars ++ moreMembers rest))

/-- The items after the first, and the closing bracket. -/
def moreItems : List Json → List Char
  | [] => [']']
  | item :: rest => ',' :: (item.chars ++ moreItems rest)

/-- The members after the first, and the closing brace. -/
def moreMembers : List (String × Json) → List Char
  | [] => ['}']
  | (name, value) :: rest =>
    ',' :: (stringChars name ++ ':' :: (value.chars ++ moreMembers rest))

end

/-- The compact text of a value. -/
def render (value : Json) : String :=
  String.ofList value.chars

end Json
end DocQuery
