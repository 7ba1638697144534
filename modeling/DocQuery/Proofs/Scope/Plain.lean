import DocQuery.Proofs.Scope.Projected

/-!
# Plain paths

Stored names and the names of projected documents are where all paths begin. If none of
them begins with a dollar sign, neither does any path: `plainPaths_of_plain` shows this for
the scope of an entity type and for every scope of plain documents, and `plain_of_project`
that selections with plain names lead from such a scope to another one.
-/
namespace DocQuery

namespace Sigil

/-- A path is marked if its first name is. -/
theorem isMarked_join (name : String) (rest : List String) :
    isMarked (Dotted.join (name :: rest)) = isMarked name := by
  cases rest with
  | nil => rfl
  | cons next others =>
    rw [Dotted.join_cons (by simp)]
    unfold isMarked strip?
    rw [String.toList_append, String.toList_append]
    cases letters : name.toList with
    | nil => rfl
    | cons letter more =>
      by_cases sigil : letter = '$'
      · subst sigil
        rfl
      · simp [sigil]

end Sigil

/-- No stored name is marked. -/
def FieldMapping.Plain (mapping : FieldMapping) : Prop :=
  ∀ owner member mapped, mapping owner member = some mapped →
    Sigil.isMarked (mapped.wireName member) = false

/-- No name of a document is marked, as far as it is not left to a mapping. -/
def Shape.Plain : Shape → Prop
  | .document members => ∀ member ∈ members, Sigil.isMarked member.1 = false
  | _ => True

namespace Scope

variable {mapping : FieldMapping} {scope : Scope}

/-- A walk from a plain shape finds a plain path. -/
theorem plain_of_walkShape {declared : String} {shape : Shape} {chain names : List String}
    {leaf : Shape} (stored : mapping.Plain) (plain : shape.Plain) (nonempty : chain ≠ [])
    (walked : walkShape mapping declared shape chain = .ok (names, leaf)) :
    Sigil.isMarked (Dotted.join names) = false := by
  cases chain with
  | nil => exact absurd rfl nonempty
  | cons member rest =>
    cases shape with
    | scalar => cases walked
    | entity owner =>
      rw [walkShape_entity, walkEntity_cons] at walked
      cases known : mapping owner member with
      | none =>
        rw [known] at walked
        cases walked
      | some mapped =>
        rw [known] at walked
        obtain ⟨below, -, named⟩ := bind_success walked
        cases named
        rw [Sigil.isMarked_join]
        exact stored owner member mapped known
    | document members =>
      rw [walkShape_cons] at walked
      cases known : Assoc.get? members member with
      | none =>
        rw [known] at walked
        cases walked
      | some inner =>
        rw [known] at walked
        obtain ⟨below, -, named⟩ := bind_success walked
        cases named
        rw [Sigil.isMarked_join]
        exact plain (member, inner) (Assoc.mem_of_get? known)

/-- In a scope whose documents are plain every field has a plain path. -/
theorem plain_of_resolveExpr (stored : mapping.Plain) (plain : scope.root.Plain) {e : Expr}
    {field : ResolvedField} (resolved : scope.resolveExpr mapping e = .ok field) :
    Sigil.isMarked field.path = false := by
  obtain ⟨chain, -, resolved⟩ := chain_of_resolveExpr resolved
  obtain ⟨nonempty, names, walked, path⟩ := resolve_success resolved
  rw [path]
  exact plain_of_walkShape stored plain nonempty walked

theorem plainPaths_of_plain (stored : mapping.Plain) (plain : scope.root.Plain) (e : Expr) :
    scope.PlainPaths mapping e :=
  fun _ _ _ resolved => plain_of_resolveExpr stored plain resolved

theorem names_of_shapesOf {members : List (String × Expr)} {shapes : List (String × Shape)}
    (shaped : scope.shapesOf mapping members = .ok shapes) :
    shapes.map Prod.fst = members.map Prod.fst := by
  induction members generalizing shapes with
  | nil =>
    rw [shapesOf] at shaped
    cases shaped
    rfl
  | cons pair rest ih =>
    obtain ⟨name, e⟩ := pair
    rw [shapesOf] at shaped
    obtain ⟨shape, -, shaped⟩ := bind_success shaped
    obtain ⟨others, restShaped, shaped⟩ := bind_success shaped
    cases shaped
    rw [List.map_cons, List.map_cons, ih restShaped]

/-- Behind a selection that constructs plain names the documents are plain. -/
theorem plain_of_project {projection : Expr} {next : Scope} (stored : mapping.Plain)
    (plain : scope.root.Plain)
    (names : ∀ members, projection = .construct members →
      ∀ member ∈ members, Sigil.isMarked member.1 = false)
    (projected : scope.project mapping projection = .ok next) : next.root.Plain := by
  cases projection with
  | member target name =>
    obtain ⟨field, resolved, projected⟩ := bind_success projected
    cases projected
    have unmarked := plain_of_resolveExpr stored plain resolved
    rw [← Dotted.join_segments field.path] at unmarked
    -- The value lies under the first segment of its path.
    obtain ⟨first, rest, segments⟩ := Dotted.exists_segments field.path
    rw [segments, Sigil.isMarked_join] at unmarked
    rw [segments]
    intro member listed
    obtain rfl : member = (first, Shape.nested rest field.shape) := List.mem_singleton.mp listed
    exact unmarked
  | construct members =>
    obtain ⟨shape, shaped, projected⟩ := bind_success projected
    cases projected
    rw [shapeOf] at shaped
    obtain ⟨shapes, shapesOk, shaped⟩ := bind_success shaped
    cases shaped
    intro member listed
    have named : member.1 ∈ members.map Prod.fst := by
      rw [← names_of_shapesOf shapesOk]
      exact List.mem_map_of_mem listed
    obtain ⟨source, built, same⟩ := List.mem_map.mp named
    rw [← same]
    exact names members rfl source built
  | _ =>
    obtain ⟨shape, shaped, projected⟩ := bind_success projected
    cases projected
    simp only [shapeOf] at shaped
    cases shaped
    trivial

end Scope

/-- The mapping of a registry is plain if its entries are. -/
theorem MappingRegistry.resolve_plain {registry : MappingRegistry}
    (entries : ∀ entity ∈ registry.entities, ∀ member ∈ entity.2,
      Sigil.isMarked (member.2.wireName member.1) = false) : registry.resolve.Plain := by
  intro owner member mapped known
  obtain ⟨members, entity, found⟩ := Option.bind_eq_some_iff.mp known
  exact entries (owner, members) (Assoc.mem_of_get? entity) (member, mapped)
    (Assoc.mem_of_get? found)

theorem people_plain : people.Plain :=
  MappingRegistry.resolve_plain (by decide)

/-- Whatever is asked about people resolves to plain paths. -/
theorem peopleMerged_plainPaths (e : Expr) : peopleMerged.scope.PlainPaths people e := by
  have plain : peopleMerged.scope.root.Plain := trivial
  exact Scope.plainPaths_of_plain people_plain plain e

end DocQuery
