import DocQuery.Text.Hex
import DocQuery.Text.Unprintable

/-!
# Quoted text

Text between double quotes as it appears in messages: the quote and the
backslash are escaped, tab, line feed, carriage return and NUL have letters, and
every other unprintable character is written by its number.
-/
namespace DocQuery.Quoted

/-- The written form of one character. -/
def encodeChar (c : Char) : String :=
  if c = '"' then "\\\""
  else if c = '\\' then "\\\\"
  else if c = '\n' then "\\n"
  else if c = '\r' then "\\r"
  else if c = '\t' then "\\t"
  else if c.toNat = 0 then "\\0"
  else if isUnprintable c then "\\u\x7b" ++ Hex.short c.toNat ++ "\x7d"
  else String.singleton c

def quote (s : String) : String :=
  "\"" ++ String.join (s.toList.map encodeChar) ++ "\""

/-- A bracketed list of quoted texts. -/
def quoteList (texts : List String) : String :=
  "[" ++ ", ".intercalate (texts.map quote) ++ "]"

end DocQuery.Quoted
