import DocQuery.Proofs.Acceptance
import DocQuery.Proofs.Document.Paths

/-!
# Resolution of composed chains

Resolving a chain of names walks through shapes. A chain in two parts is walked
part by part: the second part starts at the shape that the first one reaches
(`walkShape_append`), and its failures name the place reached as the owner. An
entity scope is walked like the shape of its entity, so one walk serves both kinds
of scope (`walk_eq`).
-/
namespace DocQuery.Scope

variable {mapping : FieldMapping} {scope : Scope}

/-- The declared name of the place that a chain reaches. -/
def extend (declared : String) (chain : List String) : String :=
  chain.foldl (fun owner member => owner ++ "." ++ member) declared

/-- A walk that goes on from the place and the shape that it has reached. -/
def walkOn (mapping : FieldMapping) (declared : String) (chain : List String)
    (reached : List String × Shape) : Except CompileError (List String × Shape) :=
  (walkShape mapping declared reached.2 chain).map fun (names, leaf) => (reached.1 ++ names, leaf)

theorem walkEntity_eq (declared : String) (owner : Option String) (chain : List String) :
    walkEntity mapping declared owner chain =
      walkShape mapping declared (owner.elim .scalar .entity) chain := by
  cases owner <;> cases chain <;> rfl

theorem walkEntity_cons (declared owner member : String) (rest : List String) :
    walkEntity mapping declared (some owner) (member :: rest) =
      match mapping owner member with
      | none => .error (.unknownField owner member)
      | some mapped => do
        let (names, shape) ← walkEntity mapping (declared ++ "." ++ member) mapped.nestedType rest
        return (mapped.wireName member :: names, shape) :=
  rfl

theorem walkShape_nil (declared : String) (shape : Shape) :
    walkShape mapping declared shape [] = .ok ([], shape) := by
  cases shape <;> rfl

theorem walkShape_entity (declared owner : String) (chain : List String) :
    walkShape mapping declared (.entity owner) chain =
      walkEntity mapping declared (some owner) chain := by
  cases chain <;> rfl

theorem walkShape_cons (declared member : String) (members : Assoc Shape) (rest : List String) :
    walkShape mapping declared (.document members) (member :: rest) =
      match Assoc.get? members member with
      | none => .error (.unknownField declared member)
      | some shape => do
        let (names, leaf) ← walkShape mapping (declared ++ "." ++ member) shape rest
        return (member :: names, leaf) :=
  rfl

theorem walkOn_nil (declared : String) (chain : List String) (shape : Shape) :
    walkOn mapping declared chain ([], shape) = walkShape mapping declared shape chain := by
  unfold walkOn
  rcases walkShape mapping declared shape chain with error | reached <;> rfl

theorem walkOn_cons (name declared : String) (chain names : List String) (shape : Shape) :
    (do
      let (rest, leaf) ← walkOn mapping declared chain (names, shape)
      return (name :: rest, leaf)) = walkOn mapping declared chain (name :: names, shape) := by
  unfold walkOn
  rcases walkShape mapping declared shape chain with error | reached <;> rfl

theorem walkEntity_append (declared : String) (owner : Option String)
    (first second : List String) :
    walkEntity mapping declared owner (first ++ second) =
      walkEntity mapping declared owner first >>=
        walkOn mapping (extend declared first) second := by
  induction first generalizing declared owner with
  | nil =>
    rw [List.nil_append, walkEntity_eq]
    exact (walkOn_nil declared second _).symm
  | cons member rest ih =>
    cases owner with
    | none => rfl
    | some owner =>
      rw [List.cons_append, walkEntity_cons, walkEntity_cons]
      cases mapping owner member with
      | none => rfl
      | some mapped =>
        simp only [ih, extend, List.foldl_cons]
        rcases walkEntity mapping (declared ++ "." ++ member) mapped.nestedType rest with
          error | ⟨names, inner⟩
        · rfl
        · exact walkOn_cons (mapped.wireName member) _ second names inner

/-- A chain in two parts is walked part by part. -/
theorem walkShape_append (declared : String) (shape : Shape) (first second : List String) :
    walkShape mapping declared shape (first ++ second) =
      walkShape mapping declared shape first >>=
        walkOn mapping (extend declared first) second := by
  induction first generalizing declared shape with
  | nil =>
    rw [List.nil_append, walkShape_nil]
    exact (walkOn_nil declared second shape).symm
  | cons member rest ih =>
    cases shape with
    | scalar => rfl
    | entity owner =>
      have whole := @walkEntity_append mapping declared (some owner) (member :: rest) second
      rwa [walkEntity_eq, walkEntity_eq] at whole
    | document members =>
      rw [List.cons_append, walkShape_cons, walkShape_cons]
      cases Assoc.get? members member with
      | none => rfl
      | some shape =>
        simp only [ih, extend, List.foldl_cons]
        rcases walkShape mapping (declared ++ "." ++ member) shape rest with error | ⟨names, inner⟩
        · rfl
        · exact walkOn_cons member _ second names inner

theorem walkEntity_success_of_declared {declared : String} (other : String)
    {owner : Option String} {chain : List String} {reached : List String × Shape}
    (success : walkEntity mapping declared owner chain = .ok reached) :
    walkEntity mapping other owner chain = .ok reached := by
  induction chain generalizing declared other owner reached with
  | nil => exact success
  | cons member rest ih =>
    cases owner with
    | none => cases success
    | some owner =>
      rw [walkEntity_cons] at success ⊢
      cases known : mapping owner member with
      | none =>
        rw [known] at success
        cases success
      | some mapped =>
        rw [known] at success
        obtain ⟨below, walked, named⟩ := bind_success success
        cases named
        simp only [ih (other ++ "." ++ member) walked]
        rfl

/-- A walk that succeeds does not depend on the declared name of its start. -/
theorem walkShape_success_of_declared {declared : String} (other : String) {shape : Shape}
    {chain : List String} {reached : List String × Shape}
    (success : walkShape mapping declared shape chain = .ok reached) :
    walkShape mapping other shape chain = .ok reached := by
  induction chain generalizing declared other shape reached with
  | nil =>
    rw [walkShape_nil] at success ⊢
    exact success
  | cons member rest ih =>
    cases shape with
    | scalar => cases success
    | entity owner =>
      exact @walkEntity_success_of_declared mapping declared other (some owner) _ _ success
    | document members =>
      rw [walkShape_cons] at success ⊢
      cases known : Assoc.get? members member with
      | none =>
        rw [known] at success
        cases success
      | some inner =>
        rw [known] at success
        obtain ⟨below, walked, named⟩ := bind_success success
        cases named
        simp only [ih (other ++ "." ++ member) walked]
        rfl

/-- A walk along some name finds some name. -/
theorem names_of_walkShape {declared : String} {shape : Shape} {chain : List String}
    {names : List String} {leaf : Shape}
    (success : walkShape mapping declared shape chain = .ok (names, leaf)) (nonempty : chain ≠ []) :
    names ≠ [] := by
  cases chain with
  | nil => exact absurd rfl nonempty
  | cons member rest =>
    cases shape with
    | scalar => cases success
    | entity owner =>
      rw [walkShape_entity, walkEntity_cons] at success
      split at success
      · cases success
      · obtain ⟨below, -, named⟩ := bind_success success
        cases named
        simp
    | document members =>
      rw [walkShape_cons] at success
      split at success
      · cases success
      · obtain ⟨below, -, named⟩ := bind_success success
        cases named
        simp

/-- The declared name of a scope itself. -/
def title : Scope → String
  | .entity owner => owner
  | .projection _ => "projection"

/-- What a document of a scope is. -/
def root : Scope → Shape
  | .entity owner => .entity owner
  | .projection shape => shape

/-- A scope is walked like the shape of its documents. -/
theorem walk_eq (chain : List String) :
    scope.walk mapping chain = walkShape mapping scope.title scope.root chain := by
  cases scope with
  | entity owner => exact walkEntity_eq owner (some owner) chain
  | projection shape => rfl

theorem resolve_success {chain : List String} {field : ResolvedField}
    (success : scope.resolve mapping chain = .ok field) :
    chain ≠ [] ∧ ∃ names,
      walkShape mapping scope.title scope.root chain = .ok (names, field.shape) ∧
        field.path = Dotted.join names := by
  cases chain with
  | nil => cases success
  | cons member rest =>
    obtain ⟨⟨names, leaf⟩, walked, success⟩ := bind_success success
    cases success
    rw [walk_eq] at walked
    exact ⟨by simp, names, walked, rfl⟩

theorem resolve_of_walkShape {chain : List String} {names : List String} {leaf : Shape}
    (nonempty : chain ≠ [])
    (walked : walkShape mapping scope.title scope.root chain = .ok (names, leaf)) :
    scope.resolve mapping chain = .ok ⟨Dotted.join names, leaf⟩ := by
  cases chain with
  | nil => exact absurd rfl nonempty
  | cons member rest =>
    simp only [resolve, walk_eq, walked]
    rfl

/-- Names below a field are resolved by a walk through its shape, and the value there is
looked up in the value of the field. -/
theorem resolve_append_of_walkShape {chain rest below : List String} {field : ResolvedField}
    {declared : String} {leaf : Shape} (resolved : scope.resolve mapping chain = .ok field)
    (walked : walkShape mapping declared field.shape rest = .ok (below, leaf)) :
    ∃ lower, scope.resolve mapping (chain ++ rest) = .ok lower ∧ ∀ document : Json,
      document.lookup lower.path =
        (document.lookup field.path).bind (·.getIn (below.flatMap Dotted.segments)) := by
  obtain ⟨nonempty, names, above, path⟩ := resolve_success resolved
  have found := names_of_walkShape above nonempty
  have whole : walkShape mapping scope.title scope.root (chain ++ rest) =
      .ok (names ++ below, leaf) := by
    rw [walkShape_append, above]
    simp only [bind, Except.bind, walkOn, walkShape_success_of_declared _ walked, Except.map]
  refine ⟨_, resolve_of_walkShape (by simp [nonempty]) whole, ?_⟩
  intro document
  rw [path, Json.lookup_join document found, Json.lookup_join document (by simp [found]),
    List.flatMap_append, Json.getIn_append]

theorem walkShape_of_resolve_append {chain rest : List String} {field lower : ResolvedField}
    (declared : String) (resolved : scope.resolve mapping chain = .ok field)
    (success : scope.resolve mapping (chain ++ rest) = .ok lower) :
    ∃ reached, walkShape mapping declared field.shape rest = .ok reached := by
  obtain ⟨-, names, above, -⟩ := resolve_success resolved
  obtain ⟨-, whole, walked, -⟩ := resolve_success success
  rw [walkShape_append, above] at walked
  simp only [bind, Except.bind, walkOn] at walked
  cases below : walkShape mapping (extend scope.title chain) field.shape rest with
  | error error =>
    rw [below] at walked
    cases walked
  | ok reached => exact ⟨reached, walkShape_success_of_declared declared below⟩

end DocQuery.Scope
