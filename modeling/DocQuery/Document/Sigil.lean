/-!
# The dollar sign

Operators and references to fields begin with a dollar sign; every other name is
a plain name.
-/
namespace DocQuery.Sigil

/-- The text behind a leading dollar sign. -/
def strip? (name : String) : Option String :=
  match name.toList with
  | '$' :: rest => some (String.ofList rest)
  | _ => none

/-- A name that begins with a dollar sign. -/
def isMarked (name : String) : Bool :=
  (strip? name).isSome

/-- A reference to the field at a path. -/
def mark (path : String) : String :=
  "$" ++ path

@[simp] theorem strip?_mark (path : String) : strip? (mark path) = some path := by
  simp [strip?, mark]

end DocQuery.Sigil
