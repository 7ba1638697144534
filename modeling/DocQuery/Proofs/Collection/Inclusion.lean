import DocQuery.Collection.Project
import DocQuery.Proofs.Document.Paths

/-!
# Projections that include fields

A body of flags includes the fields at its paths, and the identity unless it names it. Such a
projection copies what the document has at each path, one after the other, into an empty
document (`project_of_flags`). Where no path leads through another one, the copies do not meet:
what is copied is the restriction of the document to the paths, and restricting it again
changes nothing (`inclusion_restricts`).
-/
namespace DocQuery.Project

/-- A member of a body that includes a field or leaves the identity out. -/
inductive IsFlag : String × Json → Prop where
  | yes (path : String) : IsFlag (path, .bool true)
  | nonzero (path : String) (n : Number) (counts : n.isZero = false) : IsFlag (path, .num n)
  | zeroIdentity (n : Number) (zero : n.isZero = true) : IsFlag ("_id", .num n)
  | noIdentity : IsFlag ("_id", .bool false)

/-- The paths that a body of flags includes. -/
def includedPaths (body : Members) : List String :=
  (if body.has "_id" then [] else ["_id"]) ++
    (body.filter fun entry => isTruthy entry.2).map Prod.fst

/-- The output after copying what the document has at a path. -/
def copyPath (document : Json) (output : Members) (path : String) : Members :=
  match document.lookup path with
  | some value => output.setPath path value
  | none => output

/-- The output after copying what the document has at each path, in order. -/
def copyPaths (document : Json) (output : Members) (paths : List String) : Members :=
  paths.foldl (copyPath document) output

theorem copyPaths_cons (document : Json) (output : Members) (path : String) (rest : List String) :
    copyPaths document output (path :: rest) =
      copyPaths document (copyPath document output path) rest :=
  rfl

/-! ## Projecting is copying -/

variable {document : Json} {output : Members}

theorem projectMember_of_flag {path : String} {flag : Json} (isFlag : IsFlag (path, flag)) :
    projectMember document output path flag =
      .ok (if isTruthy flag then copyPath document output path else output) := by
  cases isFlag with
  | yes => rfl
  | nonzero _ n counts =>
    have truthy : isTruthy (.num n) = true := by rw [isTruthy, counts, Bool.not_false]
    simp only [projectMember, truthy, if_true]
    rfl
  | zeroIdentity n zero => simp [projectMember, isTruthy, zero]
  | noIdentity => rfl

theorem projectMembers_of_flags {body : Members} (flags : ∀ entry ∈ body, IsFlag entry) :
    projectMembers document output body =
      .ok (copyPaths document output ((body.filter fun entry => isTruthy entry.2).map Prod.fst)) := by
  induction body generalizing output with
  | nil => rfl
  | cons entry rest ih =>
    obtain ⟨path, flag⟩ := entry
    rw [List.forall_mem_cons] at flags
    rw [projectMembers, projectMember_of_flag flags.1]
    change projectMembers document _ rest = _
    rw [ih flags.2]
    cases counts : isTruthy flag <;> simp [counts, copyPaths]

theorem implicitIdentity_eq (document : Json) (body : Members) :
    implicitIdentity document body =
      copyPaths document [] (if body.has "_id" then [] else ["_id"]) := by
  unfold implicitIdentity
  split
  · rfl
  · have one (value : Json) : Members.setPath [] "_id" value = [("_id", value)] :=
      Members.setPath_of_undotted [] value (by decide)
    rw [copyPaths_cons, copyPath]
    cases document.lookup "_id" with
    | none => rfl
    | some value => exact (one value).symm

/-- A body of flags copies the included paths. -/
theorem project_of_flags (document : Json) {body : Members} (flags : ∀ entry ∈ body, IsFlag entry) :
    project document body = .ok (.obj (copyPaths document [] (includedPaths body))) := by
  unfold project
  rw [implicitIdentity_eq, projectMembers_of_flags flags, includedPaths]
  unfold copyPaths
  rw [List.foldl_append]
  rfl

/-! ## Copying -/

variable {path copied : String} {paths : List String}

theorem lookup_copyPath_of_apart (apart : Dotted.Apart copied path) :
    (Json.obj (copyPath document output copied)).lookup path = (Json.obj output).lookup path := by
  unfold copyPath
  split
  · exact Members.lookup_setPath_of_apart output _ apart
  · rfl

/-- A path that is copied has the value of the document. -/
theorem lookup_copyPath_self (before : (Json.obj output).lookup path = none ∨
    (Json.obj output).lookup path = document.lookup path) :
    (Json.obj (copyPath document output path)).lookup path = document.lookup path := by
  unfold copyPath
  split
  next value found => rw [Members.lookup_setPath, found]
  next missing =>
    rw [missing] at before ⊢
    exact before.elim id id

theorem lookup_copyPaths_of_apart (apart : ∀ copied ∈ paths, Dotted.Apart copied path) :
    (Json.obj (copyPaths document output paths)).lookup path = (Json.obj output).lookup path := by
  induction paths generalizing output with
  | nil => rfl
  | cons first rest ih =>
    rw [List.forall_mem_cons] at apart
    rw [copyPaths_cons, ih apart.2, lookup_copyPath_of_apart apart.1]

/-- Copying other paths, or the same one again, leaves the value of the document. -/
theorem lookup_copyPaths_of_eq (apart : ∀ copied ∈ paths, copied = path ∨ Dotted.Apart copied path)
    (before : (Json.obj output).lookup path = document.lookup path) :
    (Json.obj (copyPaths document output paths)).lookup path = document.lookup path := by
  induction paths generalizing output with
  | nil => exact before
  | cons first rest ih =>
    rw [List.forall_mem_cons] at apart
    rw [copyPaths_cons]
    apply ih apart.2
    rcases apart.1 with rfl | apart
    · exact lookup_copyPath_self (.inr before)
    · rw [lookup_copyPath_of_apart apart, before]

/-- A path among those that are copied has the value of the document. -/
theorem lookup_copyPaths_of_mem (apart : ∀ copied ∈ paths, copied = path ∨ Dotted.Apart copied path)
    (before : (Json.obj output).lookup path = none) (listed : path ∈ paths) :
    (Json.obj (copyPaths document output paths)).lookup path = document.lookup path := by
  induction paths generalizing output with
  | nil => cases listed
  | cons first rest ih =>
    rw [List.forall_mem_cons] at apart
    rw [copyPaths_cons]
    rcases apart.1 with rfl | elsewhere
    · exact lookup_copyPaths_of_eq apart.2 (lookup_copyPath_self (.inl before))
    · rcases List.mem_cons.mp listed with rfl | later
      · exact absurd List.prefix_rfl elsewhere.not_through
      · apply ih apart.2 _ later
        rw [lookup_copyPath_of_apart elsewhere, before]

/-- What is copied depends on what the document has at the paths. -/
theorem copyPaths_congr {other : Json}
    (same : ∀ copied ∈ paths, other.lookup copied = document.lookup copied) :
    copyPaths other output paths = copyPaths document output paths := by
  induction paths generalizing output with
  | nil => rfl
  | cons first rest ih =>
    rw [List.forall_mem_cons] at same
    have head : copyPath other output first = copyPath document output first := by
      unfold copyPath
      rw [same.1]
    rw [copyPaths_cons, copyPaths_cons, head, ih same.2]

/-- Inclusion is exact restriction. A body of flags no path of which leads through another one
can be projected from every document. At the included paths and below them the result has what
the document has; apart from them it has nothing; and it is its own projection, with its members
in the same order. -/
theorem inclusion_restricts (document : Json) (body : Members)
    (flags : ∀ entry ∈ body, IsFlag entry)
    (apart : ∀ p ∈ includedPaths body, ∀ q ∈ includedPaths body,
      Dotted.segments p <+: Dotted.segments q → p = q) :
    ∃ output, project document body = .ok output ∧
      (∀ p ∈ includedPaths body, ∀ q, Dotted.segments p <+: Dotted.segments q →
        output.lookup q = document.lookup q) ∧
      (∀ q, (∀ p ∈ includedPaths body, Dotted.Apart p q) → output.lookup q = none) ∧
      project output body = .ok output := by
  have restricted : ∀ p ∈ includedPaths body,
      (Json.obj (copyPaths document [] (includedPaths body))).lookup p = document.lookup p := by
    intro p included
    apply lookup_copyPaths_of_mem _ (Json.lookup_empty p) included
    intro copied listed
    by_cases same : copied = p
    · exact .inl same
    · refine .inr ⟨fun through => same (apart copied listed p included through), fun below => ?_⟩
      exact same (apart p included copied listed below).symm
  refine ⟨_, project_of_flags document flags, ?_, ?_, ?_⟩
  · rintro p included q ⟨rest, below⟩
    have here := restricted p included
    unfold Json.lookup at here ⊢
    rw [← below, Json.getIn_append, Json.getIn_append, here]
  · intro q apartFrom
    rw [lookup_copyPaths_of_apart apartFrom, Json.lookup_empty]
  · rw [project_of_flags _ flags, copyPaths_congr restricted]

/-- A member of a club, with an address. -/
def clubMember : Json :=
  .obj [("Name", .str "Ada"), ("_id", .str "7"),
    ("Address", .obj [("Zip", .str "N1"), ("City", .str "London")]), ("Age", .num (.int 36))]

/-- The name and the city of a member, behind the identity. -/
theorem inclusion_restricts_clubMember :
    let body : Members := [("Address.City", .num (.int 1)), ("Name", .bool true)]
    let output : Json := .obj [("_id", .str "7"), ("Address", .obj [("City", .str "London")]),
      ("Name", .str "Ada")]
    (∀ entry ∈ body, IsFlag entry) ∧
      (∀ p ∈ includedPaths body, ∀ q ∈ includedPaths body,
        Dotted.segments p <+: Dotted.segments q → p = q) ∧
      project clubMember body = .ok output ∧
      output.lookup "Address.City" = clubMember.lookup "Address.City" ∧
      output.lookup "Address.Zip" = none ∧ project output body = .ok output := by
  intro body output
  have flags : ∀ entry ∈ body, IsFlag entry := by
    rw [List.forall_mem_cons, List.forall_mem_singleton]
    exact ⟨.nonzero _ _ rfl, .yes _⟩
  have apart : ∀ p ∈ includedPaths body, ∀ q ∈ includedPaths body,
      Dotted.segments p <+: Dotted.segments q → p = q := by decide +kernel
  obtain ⟨made, projected, inside, outside, again⟩ := inclusion_restricts clubMember body flags apart
  have result : project clubMember body = .ok output := rfl
  cases result.symm.trans projected
  exact ⟨flags, apart, result, inside "Address.City" (by decide +kernel) _ List.prefix_rfl,
    outside "Address.Zip" (by decide +kernel), again⟩

end DocQuery.Project
