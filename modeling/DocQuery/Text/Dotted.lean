/-!
# Dotted names

A dotted name such as `Address.City` is a sequence of segments. `segments` cuts
at every dot, so the empty name has one empty segment and no name has none;
`join` puts the dots back. Cutting and joining are inverse on names
(`join_segments`), and cutting a joined sequence cuts each of its parts
(`segments_join`).
-/
namespace DocQuery.Dotted

/-- Cuts a character sequence at every dot. -/
def cut : List Char → List (List Char)
  | [] => [[]]
  | c :: rest =>
    if c = '.' then [] :: cut rest
    else match cut rest with
      | [] => [[c]]
      | word :: words => (c :: word) :: words

/-- The segments of a dotted name, at least one. -/
def segments (name : String) : List String :=
  (cut name.toList).map String.ofList

/-- The dotted name of a sequence of segments. -/
def join : List String → String
  | [] => ""
  | [segment] => segment
  | segment :: rest => segment ++ "." ++ join rest

theorem cut_ne_nil (cs : List Char) : cut cs ≠ [] := by
  cases cs with
  | nil => simp [cut]
  | cons c rest =>
    simp only [cut]
    split
    · simp
    · split <;> simp

theorem segments_ne_nil (name : String) : segments name ≠ [] := by
  simp [segments, cut_ne_nil]

theorem join_cons {segment : String} {rest : List String} (h : rest ≠ []) :
    join (segment :: rest) = segment ++ "." ++ join rest := by
  cases rest with
  | nil => exact absurd rfl h
  | cons _ _ => rfl

private theorem toList_join_cut (cs : List Char) :
    (join ((cut cs).map String.ofList)).toList = cs := by
  induction cs with
  | nil => simp [cut, join]
  | cons c rest ih =>
    simp only [cut]
    split
    · next h =>
      subst h
      rw [List.map_cons, join_cons (by simp [cut_ne_nil])]
      simp [ih]
    · split
      · next h => exact absurd h (cut_ne_nil rest)
      · next word words h =>
        rw [h] at ih
        cases words with
        | nil => simpa [join] using ih
        | cons w ws =>
          simp only [List.map_cons] at ih ⊢
          rw [join_cons (by simp)] at ih ⊢
          simpa using ih

/-- Joining the segments of a name gives the name back. -/
theorem join_segments (name : String) : join (segments name) = name := by
  apply String.toList_injective
  simpa [segments] using toList_join_cut name.toList

/-- A dot separates: the cut of the whole is the cuts of both sides. -/
theorem cut_append_dot (left right : List Char) :
    cut (left ++ '.' :: right) = cut left ++ cut right := by
  induction left with
  | nil => simp [cut]
  | cons c rest ih =>
    simp only [List.cons_append, cut, ih]
    split
    · rfl
    · cases h : cut rest with
      | nil => exact absurd h (cut_ne_nil rest)
      | cons word words => simp

/-- Cutting a joined sequence cuts each of its parts. -/
theorem segments_join {parts : List String} (h : parts ≠ []) :
    segments (join parts) = parts.flatMap segments := by
  induction parts with
  | nil => exact absurd rfl h
  | cons part rest ih =>
    cases rest with
    | nil => simp [join]
    | cons next others =>
      rw [join_cons (by simp), List.flatMap_cons, ← ih (by simp)]
      simp [segments, cut_append_dot]

end DocQuery.Dotted
