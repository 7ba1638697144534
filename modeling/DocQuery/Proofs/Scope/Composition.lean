import DocQuery.Proofs.Expr.Operands
import DocQuery.Proofs.Scope.Projected

/-!
# Composing resolved paths

A chain in two parts is resolved part by part: what the first part reaches is a scope of its
own, in which the second part is resolved. Three walks take turns on the way, through the
members of an entity type, through the shape of a projection, and from there into a copied
entity; `resolve_composes` shows that the cut may fall anywhere in any of them. It also says
which segment of a chain is reported if the chain does not resolve: the first one to which it
does not.
-/
namespace DocQuery

theorem Dotted.join_append {first second : List String} (nonempty : first ≠ [])
    (others : second ≠ []) : join (first ++ second) = join first ++ "." ++ join second := by
  induction first with
  | nil => exact absurd rfl nonempty
  | cons segment rest ih =>
    cases rest with
    | nil => exact join_cons others
    | cons next more =>
      rw [List.cons_append, join_cons (by simp), join_cons (by simp), ih (by simp)]
      simp only [String.append_assoc]

namespace Scope

variable {mapping : FieldMapping} {scope : Scope}

/-- A walk along two parts succeeds if both do, whatever name the second one starts from. -/
theorem walkShape_append_success_iff (declared other : String) (shape : Shape)
    (first second names : List String) (leaf : Shape) :
    walkShape mapping declared shape (first ++ second) = .ok (names, leaf) ↔
      ∃ above inner below, walkShape mapping declared shape first = .ok (above, inner) ∧
        walkShape mapping other inner second = .ok (below, leaf) ∧ names = above ++ below := by
  rw [walkShape_append]
  constructor
  · intro success
    obtain ⟨⟨above, inner⟩, walked, success⟩ := bind_success success
    unfold walkOn at success
    cases lower : walkShape mapping (extend declared first) inner second with
    | error error =>
      rw [lower] at success
      cases success
    | ok reached =>
      rw [lower] at success
      cases success
      exact ⟨above, inner, reached.1, walked, walkShape_success_of_declared other lower, rfl⟩
  · rintro ⟨above, inner, below, walked, lower, rfl⟩
    rw [walked]
    simp only [bind, Except.bind, walkOn, walkShape_success_of_declared _ lower, Except.map]

/-- A field is resolved by a walk from the shape of the scope's documents. -/
theorem resolve_eq_ok_iff {chain : List String} (nonempty : chain ≠ []) (field : ResolvedField) :
    scope.resolve mapping chain = .ok field ↔
      ∃ names, walkShape mapping scope.title scope.root chain = .ok (names, field.shape) ∧
        field.path = Dotted.join names := by
  constructor
  · intro success
    exact (resolve_success success).2
  · rintro ⟨names, walked, path⟩
    rw [resolve_of_walkShape nonempty walked, ← path]

theorem resolve_append_iff {first second : List String} (nonempty : first ≠ [])
    (others : second ≠ []) (field : ResolvedField) :
    scope.resolve mapping (first ++ second) = .ok field ↔
      ∃ upper lower, scope.resolve mapping first = .ok upper ∧
        (Scope.projection upper.shape).resolve mapping second = .ok lower ∧
        field = ⟨upper.path ++ "." ++ lower.path, lower.shape⟩ := by
  rw [resolve_eq_ok_iff (by simp [nonempty])]
  constructor
  · rintro ⟨names, walked, path⟩
    obtain ⟨above, inner, below, upper, lower, rfl⟩ :=
      (walkShape_append_success_iff _ "projection" _ first second names _).mp walked
    refine ⟨⟨Dotted.join above, inner⟩, ⟨Dotted.join below, field.shape⟩,
      resolve_of_walkShape nonempty upper, resolve_of_walkShape others lower, ?_⟩
    rw [← Dotted.join_append (names_of_walkShape upper nonempty) (names_of_walkShape lower others),
      ← path]
  · rintro ⟨upper, lower, upperOk, lowerOk, rfl⟩
    obtain ⟨above, upperWalk, upperPath⟩ := (resolve_eq_ok_iff nonempty upper).mp upperOk
    obtain ⟨below, lowerWalk, lowerPath⟩ := (resolve_eq_ok_iff others lower).mp lowerOk
    refine ⟨above ++ below, ?_, ?_⟩
    · exact (walkShape_append_success_iff _ "projection" _ first second _ _).mpr
        ⟨above, upper.shape, below, upperWalk, lowerWalk, rfl⟩
    · rw [Dotted.join_append (names_of_walkShape upperWalk nonempty)
        (names_of_walkShape lowerWalk others), upperPath, lowerPath]

/-! ## Refused chains -/

/-- One segment that does not resolve is reported itself. -/
theorem walkShape_segment_refused {declared member : String} {shape : Shape} {error : CompileError}
    (refused : walkShape mapping declared shape [member] = .error error) :
    ∃ owner, error = .unknownField owner member := by
  cases shape with
  | scalar =>
    cases refused
    exact ⟨declared, rfl⟩
  | entity owner =>
    have entered : walkEntity mapping declared (some owner) [member] = .error error := refused
    rw [walkEntity_cons] at entered
    cases known : mapping owner member with
    | none =>
      rw [known] at entered
      cases entered
      exact ⟨owner, rfl⟩
    | some mapped =>
      simp only [known, walkEntity] at entered
      cases entered
  | document members =>
    rw [walkShape_cons] at refused
    cases known : Assoc.get? members member with
    | none =>
      rw [known] at refused
      cases refused
      exact ⟨declared, rfl⟩
    | some inner =>
      rw [known] at refused
      simp only [walkShape_nil] at refused
      cases refused

/-- A refused walk is refused at a segment, and leads up to it. -/
theorem walkShape_refused {declared : String} {shape : Shape} {chain : List String}
    {error : CompileError} (refused : walkShape mapping declared shape chain = .error error) :
    ∃ before member after owner, chain = before ++ member :: after ∧
      error = .unknownField owner member ∧
      (∃ reached, walkShape mapping declared shape before = .ok reached) ∧
      walkShape mapping declared shape (before ++ [member]) = .error error := by
  induction chain generalizing declared shape with
  | nil =>
    rw [walkShape] at refused
    cases refused
  | cons first rest ih =>
    cases step : walkShape mapping declared shape [first] with
    | error fault =>
      have whole := @walkShape_append mapping declared shape [first] rest
      rw [step, List.singleton_append, refused] at whole
      cases whole
      obtain ⟨owner, reported⟩ := walkShape_segment_refused step
      exact ⟨[], first, rest, owner, rfl, reported, ⟨_, by rw [walkShape]⟩, step⟩
    | ok reached =>
      -- Behind the first segment the walk goes on from the shape reached.
      have onward (others : List String) := @walkShape_append mapping declared shape [first] others
      simp only [step, bind, Except.bind, walkOn, List.singleton_append] at onward
      rw [onward] at refused
      cases tail : walkShape mapping (extend declared [first]) reached.2 rest with
      | ok more =>
        rw [tail] at refused
        cases refused
      | error fault =>
        rw [tail] at refused
        cases refused
        obtain ⟨before, member, after, owner, rfl, reported, ⟨more, walked⟩, fault⟩ := ih tail
        refine ⟨first :: before, member, after, owner, rfl, reported, ?_, ?_⟩
        · rw [onward, walked]
          exact ⟨_, rfl⟩
        · rw [List.cons_append, onward, fault]
          rfl

theorem resolve_eq_error_iff {chain : List String} (nonempty : chain ≠ []) (error : CompileError) :
    scope.resolve mapping chain = .error error ↔
      walkShape mapping scope.title scope.root chain = .error error := by
  cases chain with
  | nil => exact absurd rfl nonempty
  | cons member rest =>
    simp only [resolve, walk_eq]
    cases walkShape mapping scope.title scope.root (member :: rest) <;>
      simp [bind, Except.bind, pure, Except.pure]

/-- A part of a chain resolves if a longer part does. -/
theorem resolves_of_append {first second : List String} (nonempty : first ≠ [])
    {reached : List String × Shape}
    (walked : walkShape mapping scope.title scope.root (first ++ second) = .ok reached) :
    ∃ field, scope.resolve mapping first = .ok field := by
  obtain ⟨above, inner, below, upper, -⟩ :=
    (walkShape_append_success_iff _ scope.title _ first second reached.1 reached.2).mp walked
  exact ⟨_, resolve_of_walkShape nonempty upper⟩

/-- Resolution is compositional and pinpoints failures. A chain in two parts resolves if the
first part does, and the second one does in what the first one reaches; the paths are joined
by a dot. A chain that does not resolve is refused for its first segment up to which it does
not. -/
theorem resolve_composes (mapping : FieldMapping) (scope : Scope) :
    (∀ first second : List String, first ≠ [] → second ≠ [] → ∀ field,
      scope.resolve mapping (first ++ second) = .ok field ↔
        ∃ upper lower, scope.resolve mapping first = .ok upper ∧
          (Scope.projection upper.shape).resolve mapping second = .ok lower ∧
          field = ⟨upper.path ++ "." ++ lower.path, lower.shape⟩) ∧
    ∀ (chain : List String) (error : CompileError), chain ≠ [] →
      scope.resolve mapping chain = .error error →
        ∃ (k : Nat) (owner : String) (inside : k < chain.length),
          error = .unknownField owner chain[k] ∧
          (∀ j < k, ∃ field, scope.resolve mapping (chain.take (j + 1)) = .ok field) ∧
          scope.resolve mapping (chain.take (k + 1)) = .error error := by
  refine ⟨fun first second nonempty others field => resolve_append_iff nonempty others field, ?_⟩
  intro chain error nonempty refused
  rw [resolve_eq_error_iff nonempty] at refused
  obtain ⟨before, member, after, owner, rfl, reported, ⟨reached, walked⟩, fault⟩ :=
    walkShape_refused refused
  refine ⟨before.length, owner, by simp, by simpa using reported, ?_, ?_⟩
  · intro j shorter
    have part : (before ++ member :: after).take (j + 1) = before.take (j + 1) := by
      rw [List.take_append_of_le_length (by omega)]
    rw [part]
    rw [← List.take_append_drop (j + 1) before] at walked
    refine resolves_of_append ?_ walked
    intro empty
    have size := congrArg List.length empty
    simp only [List.length_take, List.length_nil] at size
    omega
  · have part : (before ++ member :: after).take (before.length + 1) = before ++ [member] := by
      simp [List.take_append, List.take_of_length_le]
    rw [part, resolve_eq_error_iff (by simp)]
    exact fault

/-- Documents of an address and, constructed beside it, a place. -/
def homes : Scope :=
  .projection (.document [("Home", .entity "Address"), ("Place", .document [("City", .scalar)])])

/-- The cut before the city falls on the handing over to the copied entity, and the zip behind
the city is reported. -/
theorem resolve_composes_home :
    homes.resolve people ["Home", "City"] = .ok ⟨"Home.place.city", .scalar⟩ ∧
      ∃ (k : Nat) (owner : String) (inside : k < 3),
        homes.resolve people ["Home", "City", "Zip"] =
          .error (.unknownField owner (["Home", "City", "Zip"][k])) ∧
        (∀ j < k, ∃ field,
          homes.resolve people (["Home", "City", "Zip"].take (j + 1)) = .ok field) := by
  obtain ⟨composed, pinpointed⟩ := resolve_composes people homes
  have refused : homes.resolve people ["Home", "City", "Zip"] =
      .error (.unknownField "projection.Home.City" "Zip") := rfl
  refine ⟨(composed ["Home"] ["City"] (by simp) (by simp) _).mpr ⟨⟨"Home", .entity "Address"⟩,
    ⟨"place.city", .scalar⟩, rfl, rfl, rfl⟩, ?_⟩
  obtain ⟨k, owner, inside, reported, resolving, -⟩ := pinpointed _ _ (by simp) refused
  exact ⟨k, owner, inside, refused.trans (congrArg Except.error reported), resolving⟩

end Scope
end DocQuery
