import DocQuery.Text.Hex

/-!
# Universally unique identifiers

A 128-bit number, written as 32 lower-case hexadecimal digits in groups of 8, 4,
4, 4 and 12 with hyphens between them. Reading takes digits of either case, with
the hyphens or without any.
-/
namespace DocQuery

structure Uuid where
  value : BitVec 128
  deriving DecidableEq, Repr

namespace Uuid

/-- The hyphenated text. -/
def text (id : Uuid) : String :=
  let digits := Hex.fixed 32 id.value.toNat
  let group (start length : Nat) := (digits.drop start).take length
  String.ofList (group 0 8 ++ '-' :: group 8 4 ++ '-' :: group 12 4 ++ '-' :: group 16 4 ++
    '-' :: group 20 12)

def ofText? (text : String) : Option Uuid :=
  let cs := text.toList
  let hyphenated := cs.length = 36 ∧ [8, 13, 18, 23].all fun i => cs[i]? = some '-'
  let digits := if hyphenated then cs.filter (· ≠ '-') else cs
  if digits.length = 32 then (Hex.value? digits).map fun n => ⟨BitVec.ofNat 128 n⟩ else none

end Uuid
end DocQuery
