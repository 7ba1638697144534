import DocQuery.Document.Path

/-!
# Laws of dotted paths

A name without a dot is one segment, and the segments of a name have no dots. A
path of several names is looked up one name after the other, and a value written
into the empty document lies under the segments of its path and nothing else.

A path and a written one meet in one of four ways, and each has its law: the value
is read back at the path (`lookup_setPath`) and below it (`lookup_setPath_below`),
the documents on the way take the rest of the path (`lookup_setPath_through`), and
what lies apart stays as it was (`lookup_setPath_of_apart`). `setPath_reads_back`
states them together, with the order of the members.
-/
namespace DocQuery

namespace Dotted

/-- A name is one segment. -/
def Undotted (name : String) : Prop := '.' ∉ name.toList

instance (name : String) : Decidable (Undotted name) :=
  inferInstanceAs (Decidable ('.' ∉ name.toList))

theorem cut_of_undotted {cs : List Char} (undotted : '.' ∉ cs) : cut cs = [cs] := by
  induction cs with
  | nil => rfl
  | cons c rest ih =>
    simp only [List.mem_cons, not_or] at undotted
    simp only [cut, if_neg (Ne.symm undotted.1), ih undotted.2]

theorem segments_of_undotted {name : String} (undotted : Undotted name) :
    segments name = [name] := by
  simp [segments, cut_of_undotted undotted]

theorem undotted_of_mem_cut {cs word : List Char} (member : word ∈ cut cs) : '.' ∉ word := by
  induction cs generalizing word with
  | nil =>
    simp only [cut, List.mem_singleton] at member
    simp [member]
  | cons c rest ih =>
    simp only [cut] at member
    split at member
    · rcases List.mem_cons.mp member with rfl | member
      · simp
      · exact ih member
    next notDot =>
      split at member
      next empty => exact absurd empty (cut_ne_nil rest)
      next first others cutRest =>
        rcases List.mem_cons.mp member with rfl | member
        · have tail : '.' ∉ first := ih (by simp [cutRest])
          simp [Ne.symm notDot, tail]
        · exact ih (by simp [cutRest, member])

theorem undotted_of_mem_segments {name segment : String} (member : segment ∈ segments name) :
    Undotted segment := by
  simp only [segments, List.mem_map] at member
  obtain ⟨word, member, rfl⟩ := member
  simpa [Undotted] using undotted_of_mem_cut member

/-- A dot between two paths separates their segments. -/
theorem segments_append_dot (left right : String) :
    segments (left ++ "." ++ right) = segments left ++ segments right := by
  have joined := segments_join (List.cons_ne_nil left [right])
  rwa [List.flatMap_cons, List.flatMap_singleton] at joined

theorem exists_segments (name : String) : ∃ first rest, segments name = first :: rest :=
  List.exists_cons_of_ne_nil (segments_ne_nil name)

/-- Neither of two paths leads through the other. -/
structure Apart (first second : String) : Prop where
  not_through : ¬ segments first <+: segments second
  not_below : ¬ segments second <+: segments first

instance (first second : String) : Decidable (Apart first second) :=
  decidable_of_iff (_ ∧ _) ⟨fun both => ⟨both.1, both.2⟩, fun apart => ⟨apart.1, apart.2⟩⟩

end Dotted

namespace Json

/-- A value under a sequence of names, each in a document of its own. -/
def nest (names : List String) (value : Json) : Json :=
  names.foldr (fun name inner => .obj [(name, inner)]) value

theorem getIn_append (document : Json) (first second : List String) :
    document.getIn (first ++ second) = (document.getIn first).bind (·.getIn second) := by
  induction first generalizing document with
  | nil => simp [getIn]
  | cons name rest ih =>
    cases document with
    | obj members =>
      simp only [List.cons_append, getIn]
      cases Assoc.get? members name with
      | none => rfl
      | some inner => exact ih inner
    | _ => simp [getIn]

/-- A path of names is looked up through the segments of each. -/
theorem lookup_join (document : Json) {names : List String} (nonempty : names ≠ []) :
    document.lookup (Dotted.join names) = document.getIn (names.flatMap Dotted.segments) := by
  rw [lookup, Dotted.segments_join nonempty]

/-- What lies below a path is looked up in the value at the path. -/
theorem lookup_append_dot (document : Json) (path rest : String) :
    document.lookup (path ++ "." ++ rest) = (document.lookup path).bind (·.lookup rest) := by
  unfold lookup
  rw [Dotted.segments_append_dot, getIn_append]

/-- Nothing lies at a path in the empty document. -/
theorem lookup_empty (path : String) : (Json.obj []).lookup path = none := by
  obtain ⟨name, rest, cut⟩ := Dotted.exists_segments path
  rw [lookup, cut]
  rfl

/-- A value read below the members of an object, or of what is made of another value. -/
theorem getIn_membersOrEmpty (found : Option Json) (name : String) (rest : List String) :
    (Json.obj (membersOrEmpty found)).getIn (name :: rest) = found.bind (·.getIn (name :: rest)) := by
  cases found with
  | none => rfl
  | some value => cases value <;> rfl

end Json

namespace Members

/-- Writing does not change what lies neither on the way to the value nor below it. -/
theorem getIn_setIn_of_apart (members : Members) (name : String) (rest : List String) (value : Json)
    {path : List String} (notThrough : ¬ (name :: rest) <+: path) (notBelow : ¬ path <+: name :: rest) :
    (Json.obj (members.setIn name rest value)).getIn path = (Json.obj members).getIn path := by
  induction rest generalizing members name path with
  | nil =>
    cases path with
    | nil => exact absurd List.nil_prefix notBelow
    | cons other others =>
      have different : name ≠ other := by
        rintro rfl
        exact notThrough (List.prefix_append [name] others)
      rw [setIn, Json.getIn, Json.getIn, Assoc.get?_insert_of_ne _ _ different]
  | cons next rest ih =>
    cases path with
    | nil => exact absurd List.nil_prefix notBelow
    | cons other others =>
      rw [setIn, Json.getIn, Json.getIn]
      by_cases same : name = other
      · subst same
        rw [List.prefix_cons_inj] at notThrough notBelow
        cases others with
        | nil => exact absurd List.nil_prefix notBelow
        | cons first others =>
          rw [Assoc.get?_insert_self, Option.bind_some, ih _ _ notThrough notBelow,
            Json.getIn_membersOrEmpty]
      · rw [Assoc.get?_insert_of_ne _ _ same]

/-- A document on the way to the value is the one that was there, or an empty one in place of
anything else, with the value written at what is left of the path. -/
theorem getIn_setIn_through (members : Members) (name : String) (way : List String) (next : String)
    (rest : List String) (value : Json) :
    (Json.obj (members.setIn name (way ++ next :: rest) value)).getIn (name :: way) =
      some (.obj (setIn (Json.membersOrEmpty ((Json.obj members).getIn (name :: way)))
        next rest value)) := by
  induction way generalizing members name with
  | nil =>
    -- One name: what is replaced is the member of that name.
    have here : (Json.obj members).getIn [name] = members.get? name :=
      Option.bind_fun_some (members.get? name)
    rw [List.nil_append, setIn, Json.getIn, Assoc.get?_insert_self, here]
    rfl
  | cons first way ih =>
    have before : (Json.obj (Json.membersOrEmpty (members.get? name))).getIn (first :: way) =
        (Json.obj members).getIn (name :: first :: way) :=
      Json.getIn_membersOrEmpty (members.get? name) first way
    rw [List.cons_append, setIn, Json.getIn, Assoc.get?_insert_self, Option.bind_some, ih, before]

/-- Writing adds the first name at the end or leaves the names as they are. -/
theorem keys_setIn (members : Members) (name : String) (rest : List String) (value : Json) :
    Assoc.keys (members.setIn name rest value) =
      if name ∈ Assoc.keys members then Assoc.keys members else Assoc.keys members ++ [name] := by
  cases rest with
  | nil => exact Assoc.keys_insert members name value
  | cons next rest => exact Assoc.keys_insert members name _

/-! ## Writing at a dotted path -/

variable {path name : String} {rest : List String}

theorem setPath_of_segments (members : Members) (value : Json)
    (cut : Dotted.segments path = name :: rest) :
    members.setPath path value = members.setIn name rest value := by
  rw [setPath, cut]

/-- A value that was written is read back. -/
theorem lookup_setPath (members : Members) (path : String) (value : Json) :
    (Json.obj (members.setPath path value)).lookup path = some value := by
  obtain ⟨name, rest, cut⟩ := Dotted.exists_segments path
  rw [setPath_of_segments members value cut, Json.lookup, cut]
  exact getIn_setIn members name rest value

/-- Below the path the parts of the written value are read. -/
theorem lookup_setPath_below (members : Members) (path rest : String) (value : Json) :
    (Json.obj (members.setPath path value)).lookup (path ++ "." ++ rest) = value.lookup rest := by
  rw [Json.lookup_append_dot, lookup_setPath, Option.bind_some]

/-- A document on the way takes the value at the rest of the path. -/
theorem lookup_setPath_through (members : Members) (way rest : String) (value : Json) :
    (Json.obj (members.setPath (way ++ "." ++ rest) value)).lookup way =
      some (.obj (setPath (Json.membersOrEmpty ((Json.obj members).lookup way)) rest value)) := by
  obtain ⟨name, names, wayCut⟩ := Dotted.exists_segments way
  obtain ⟨next, others, restCut⟩ := Dotted.exists_segments rest
  have cut : Dotted.segments (way ++ "." ++ rest) = name :: (names ++ next :: others) := by
    rw [Dotted.segments_append_dot, wayCut, restCut, List.cons_append]
  rw [setPath_of_segments members value cut, setPath_of_segments _ value restCut, Json.lookup,
    Json.lookup, wayCut]
  exact getIn_setIn_through members name names next others value

/-- What lies apart from the path is not changed by writing. -/
theorem lookup_setPath_of_apart (members : Members) {other : String} (value : Json)
    (apart : Dotted.Apart path other) :
    (Json.obj (members.setPath path value)).lookup other = (Json.obj members).lookup other := by
  have notThrough := apart.not_through
  have notBelow := apart.not_below
  obtain ⟨name, rest, cut⟩ := Dotted.exists_segments path
  rw [cut] at notThrough notBelow
  rw [setPath_of_segments members value cut]
  exact getIn_setIn_of_apart members name rest value notThrough notBelow

theorem keys_setPath (members : Members) (value : Json)
    (cut : Dotted.segments path = name :: rest) :
    Assoc.keys (members.setPath path value) =
      if name ∈ Assoc.keys members then Assoc.keys members else Assoc.keys members ++ [name] := by
  rw [setPath_of_segments members value cut, keys_setIn]

theorem setPath_of_undotted (members : Members) (value : Json) (undotted : Dotted.Undotted name) :
    members.setPath name value = members.insert name value :=
  setPath_of_segments members value (Dotted.segments_of_undotted undotted)

theorem setIn_empty (name : String) (rest : List String) (value : Json) :
    Json.obj (setIn [] name rest value) = Json.nest (name :: rest) value := by
  induction rest generalizing name with
  | nil => rfl
  | cons next others ih =>
    simp only [setIn, Assoc.get?, Json.membersOrEmpty, Assoc.insert, ih]
    rfl

/-- A path written into the empty document gives the value under its segments. -/
theorem setPath_empty (path : String) (value : Json) :
    Json.obj (setPath [] path value) = Json.nest (Dotted.segments path) value := by
  obtain ⟨name, rest, cut⟩ := Dotted.exists_segments path
  rw [setPath_of_segments [] value cut, cut, setIn_empty]

/-- Read and write laws of dotted paths. After a value was written at a path of a document, the
value lies at the path, and below the path lies what the value has there. A document on the way
is the one that was there, or an empty one in place of anything else, with the value written at
the rest of the path. What lies apart from the path is as before, whatever stood in the way. The
members keep their names and their order, and the first name of the path comes last if it is new.
Any text is a path; two dots in a row enclose an empty name. -/
theorem setPath_reads_back (members : Members) (path : String) (value : Json) :
    (Json.obj (members.setPath path value)).lookup path = some value ∧
      (∀ rest, (Json.obj (members.setPath path value)).lookup (path ++ "." ++ rest) =
        value.lookup rest) ∧
      (∀ way rest, path = way ++ "." ++ rest →
        (Json.obj (members.setPath path value)).lookup way =
          some (.obj (setPath (Json.membersOrEmpty ((Json.obj members).lookup way)) rest value))) ∧
      (∀ other, Dotted.Apart path other →
        (Json.obj (members.setPath path value)).lookup other = (Json.obj members).lookup other) ∧
      ∃ first rest, Dotted.segments path = first :: rest ∧
        Assoc.keys (members.setPath path value) =
          if first ∈ Assoc.keys members then Assoc.keys members
          else Assoc.keys members ++ [first] := by
  obtain ⟨first, rest, cut⟩ := Dotted.exists_segments path
  refine ⟨lookup_setPath members path value, ?below, ?through, ?elsewhere, first, rest, cut,
    keys_setPath members value cut⟩
  case below =>
    intro rest
    exact lookup_setPath_below members path rest value
  case through =>
    rintro way rest rfl
    exact lookup_setPath_through members way rest value
  case elsewhere =>
    intro other apart
    exact lookup_setPath_of_apart members value apart

/-- A city with its name, below an empty name under which a text stood. -/
theorem setPath_reads_back_obstructed :
    let members : Members :=
      [("Address", .obj [("", .str "unknown"), ("Zip", .str "N1")]), ("Name", .str "Ada")]
    let city : Json := .obj [("Name", .str "London")]
    let written : Json := .obj (members.setPath "Address..City" city)
    "Address..City" = "Address" ++ "." ++ ".City" ∧
      Dotted.Apart "Address..City" "Address.Zip" ∧
      written.lookup "Address..City" = some city ∧
      written.lookup "Address..City.Name" = some (.str "London") ∧
      written.lookup "Address" =
        some (.obj [("", .obj [("City", city)]), ("Zip", .str "N1")]) ∧
      written.lookup "Address.Zip" = some (.str "N1") ∧
      Assoc.keys (members.setPath "Address..City" city) = ["Address", "Name"] := by
  intro members city written
  have path : "Address..City" = "Address" ++ "." ++ ".City" := by decide
  have apart : Dotted.Apart "Address..City" "Address.Zip" := by decide +kernel
  obtain ⟨here, below, through, elsewhere, first, rest, cut, keys⟩ :=
    setPath_reads_back members "Address..City" city
  cases cut
  exact ⟨path, apart, here, below "Name", through "Address" ".City" path,
    elsewhere "Address.Zip" apart, keys⟩

end Members
end DocQuery
