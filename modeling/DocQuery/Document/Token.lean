import DocQuery.Document.Json
import DocQuery.Numeric.Decimal
import DocQuery.Text.Hex

/-!
# Tokens of JSON text

`Token.scan` cuts a text into tokens, one character at a time. The last token may
be `malformed`, if no token goes on that way, or `unfinished`, if the text ends
inside one. A numeral outside the range of numbers and a string with a lone
surrogate are tokens without a value, so that a reader that skips them need not
refuse them.

A numeral without fraction and exponent that fits 64 bits, with or without sign,
is an integer, except for a negative zero; every other numeral is a binary64
number.
-/
namespace DocQuery

/-- The token that a text ends in. -/
inductive Unfinished where
  | word
  | numeral
  | text (loneSurrogate : Bool)
  deriving DecidableEq, Repr

inductive Token where
  | openArray
  | closeArray
  | openObject
  | closeObject
  | comma
  | colon
  | null
  | bool (value : Bool)
  | number (value : Option Number)
  | text (value : Option String)
  | malformed
  | unfinished (inside : Unfinished)
  deriving DecidableEq, Repr

namespace Token

inductive NumeralPhase where
  | sign | leadingZero | whole | point | fraction | exponentMark | exponentSign | exponent
  deriving DecidableEq, Repr

/-- The parts of a numeral, digits last first. -/
structure Numeral where
  negative : Bool := false
  whole : List Nat := []
  fraction : List Nat := []
  exponentNegative : Bool := false
  exponent : Nat := 0
  deriving DecidableEq, Repr

/-- A string being read: its characters last first, a leading surrogate that
waits for its other half, and whether a surrogate stood alone. -/
structure PartialText where
  read : List Char := []
  high : Option Nat := none
  lone : Bool := false
  deriving DecidableEq, Repr

inductive Position where
  | between
  | word (next : Char) (rest : List Char) (token : Token)
  | numeral (phase : NumeralPhase) (read : Numeral)
  | text (read : PartialText)
  | escape (read : PartialText)
  | hex (read : PartialText) (digits : List Char)
  deriving DecidableEq, Repr

/-- What one character does: it completes tokens, and it leads on or fits nowhere. -/
inductive Step where
  | advance (completed : List Token) (next : Position)
  | refuse (completed : List Token)
  deriving DecidableEq, Repr

def Step.after (token : Token) : Step → Step
  | .advance completed next => .advance (token :: completed) next
  | .refuse completed => .refuse (token :: completed)

def digit? (c : Char) : Option Nat :=
  if '0' ≤ c ∧ c ≤ '9' then some (c.toNat - '0'.toNat) else none

def isBlank (c : Char) : Bool :=
  c = ' ' || c = '\n' || c = '\t' || c = '\r'

def start (c : Char) : Step :=
  if isBlank c then .advance [] .between
  else if c = '[' then .advance [.openArray] .between
  else if c = ']' then .advance [.closeArray] .between
  else if c = '{' then .advance [.openObject] .between
  else if c = '}' then .advance [.closeObject] .between
  else if c = ',' then .advance [.comma] .between
  else if c = ':' then .advance [.colon] .between
  else if c = '"' then .advance [] (.text {})
  else if c = 'n' then .advance [] (.word 'u' ['l', 'l'] .null)
  else if c = 't' then .advance [] (.word 'r' ['u', 'e'] (.bool true))
  else if c = 'f' then .advance [] (.word 'a' ['l', 's', 'e'] (.bool false))
  else if c = '-' then .advance [] (.numeral .sign { negative := true })
  else match digit? c with
    | some 0 => .advance [] (.numeral .leadingZero { whole := [0] })
    | some d => .advance [] (.numeral .whole { whole := [d] })
    | none => .refuse []

namespace Numeral

/-- The number that decimal digits, last first, write. -/
def natural (digits : List Nat) : Nat :=
  digits.foldr (fun d n => 10 * n + d) 0

/-- The value of a numeral without fraction and exponent. -/
def integer? (n : Numeral) : Option Number :=
  let value : Int := if n.negative then -(natural n.whole : Int) else natural n.whole
  if n.negative ∧ value = 0 then some (.float Double.zero.negate)
  else if FitsWord value then some (.int value)
  else (Double.ofNumeral? n.negative n.whole.reverse [] 0).map .float

def double? (n : Numeral) : Option Number :=
  let exponent : Int := if n.exponentNegative then -(n.exponent : Int) else n.exponent
  (Double.ofNumeral? n.negative n.whole.reverse n.fraction.reverse exponent).map .float

/-- The token of a numeral that may end where it stands. -/
def token? (phase : NumeralPhase) (n : Numeral) : Option Token :=
  match phase with
  | .leadingZero | .whole => some (.number n.integer?)
  | .fraction | .exponent => some (.number n.double?)
  | .sign | .point | .exponentMark | .exponentSign => none

/-- The numeral after one more character, if that continues it. -/
def extend? (phase : NumeralPhase) (n : Numeral) (c : Char) : Option (NumeralPhase × Numeral) :=
  let isMark := c = 'e' || c = 'E'
  match phase, digit? c with
  | .sign, some d => some (if d = 0 then .leadingZero else .whole, { n with whole := [d] })
  | .whole, some d => some (.whole, { n with whole := d :: n.whole })
  | .point, some d | .fraction, some d => some (.fraction, { n with fraction := d :: n.fraction })
  | .exponentMark, some d | .exponentSign, some d | .exponent, some d =>
    some (.exponent, { n with exponent := 10 * n.exponent + d })
  | .leadingZero, none | .whole, none =>
    if c = '.' then some (.point, n)
    else if isMark then some (.exponentMark, n)
    else none
  | .fraction, none => if isMark then some (.exponentMark, n) else none
  | .exponentMark, none =>
    if c = '+' then some (.exponentSign, n)
    else if c = '-' then some (.exponentSign, { n with exponentNegative := true })
    else none
  | _, _ => none

end Numeral

namespace PartialText

/-- A character that is no surrogate; a waiting surrogate stands alone. -/
def push (t : PartialText) (c : Char) : PartialText :=
  { read := c :: t.read, high := none, lone := t.lone || t.high.isSome }

/-- A 16-bit unit written by number; two surrogates in order form one character. -/
def pushUnit (t : PartialText) (unit : Nat) : PartialText :=
  if 0xdc00 ≤ unit ∧ unit ≤ 0xdfff then
    match t.high with
    | some high =>
      let code := 0x10000 + (high - 0xd800) * 0x400 + (unit - 0xdc00)
      { t with read := Char.ofNat code :: t.read, high := none }
    | none => { t with lone := true }
  else if 0xd800 ≤ unit ∧ unit ≤ 0xdbff then
    { t with high := some unit, lone := t.lone || t.high.isSome }
  else t.push (Char.ofNat unit)

/-- The token of a string whose closing quote has been read. -/
def token (t : PartialText) : Token :=
  if t.lone || t.high.isSome then .text none
  else .text (some (String.ofList t.read.reverse))

/-- The character that a letter after a backslash stands for. -/
def escaped? (c : Char) : Option Char :=
  if c = '"' ∨ c = '\\' ∨ c = '/' then some c
  else if c = 'b' then some '\x08'
  else if c = 'f' then some '\x0c'
  else if c = 'n' then some '\n'
  else if c = 'r' then some '\r'
  else if c = 't' then some '\t'
  else none

end PartialText

def utf8Size (cs : List Char) : Nat :=
  cs.foldl (fun n c => n + c.utf8Size) 0

/-- A number written after `\u` fills four bytes and has four digits. -/
def stepHex (t : PartialText) (digits : List Char) : Step :=
  if utf8Size digits < 4 then .advance [] (.hex t digits)
  else if digits.length = 4 then
    match Hex.value? digits with
    | some unit => .advance [] (.text (t.pushUnit unit))
    | none => .refuse []
  else .refuse []

def step : Position → Char → Step
  | .between, c => start c
  | .word next rest token, c =>
    if c = next then
      match rest with
      | [] => .advance [token] .between
      | following :: others => .advance [] (.word following others token)
    else .refuse []
  | .numeral phase read, c =>
    match read.extend? phase c, read.token? phase, digit? c with
    | some (phase, read), _, _ => .advance [] (.numeral phase read)
    | none, some token, none => (start c).after token
    | none, _, _ => .refuse []
  | .text read, c =>
    if c = '"' then .advance [read.token] .between
    else if c = '\\' then .advance [] (.escape read)
    else if c.toNat < 0x20 then .refuse []
    else .advance [] (.text (read.push c))
  | .escape read, c =>
    if c = 'u' then .advance [] (.hex read [])
    else match PartialText.escaped? c with
      | some char => .advance [] (.text (read.push char))
      | none => .refuse []
  | .hex read digits, c => stepHex read (digits ++ [c])

/-- The token that the end of the text completes or cuts off. -/
def finish : Position → List Token
  | .between => []
  | .word _ _ _ => [.unfinished .word]
  | .numeral phase read =>
    match read.token? phase with
    | some token => [token]
    | none => [.unfinished .numeral]
  | .text read | .escape read | .hex read _ => [.unfinished (.text read.lone)]

def scan : Position → List Char → List Token
  | position, [] => finish position
  | position, c :: rest =>
    match step position c with
    | .advance completed next => completed ++ scan next rest
    | .refuse completed => completed ++ [.malformed]

def ofText (text : String) : List Token :=
  scan .between text.toList

end Token
end DocQuery
