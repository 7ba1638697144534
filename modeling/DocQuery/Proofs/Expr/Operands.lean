import DocQuery.Proofs.Acceptance
import Mathlib.Data.List.Induction

/-!
# Operands

Predicates and projections are made of two kinds of operands. A member chain is the access
to names from the parameter on, and it is resolved in a scope (`Scope.Resolves`). A constant
has a document form unless some number in it is not finite (`Literal.Finite`).
-/
namespace DocQuery

/-- A sequence of two steps succeeds if and only if both do. -/
theorem bind_succeeds_iff {ε α β : Type} {first : Except ε α} {next : α → Except ε β} :
    (∃ result, (first >>= next) = .ok result) ↔
      ∃ middle, first = .ok middle ∧ ∃ result, next middle = .ok result := by
  constructor
  · rintro ⟨result, success⟩
    obtain ⟨middle, reached, success⟩ := bind_success success
    exact ⟨middle, reached, result, success⟩
  · rintro ⟨middle, rfl, result, success⟩
    exact ⟨result, success⟩

/-- A sequence of two steps fails as the first one does, or else as the second one. -/
theorem bind_failure {ε α β : Type} {first : Except ε α} {next : α → Except ε β} {error : ε}
    (failure : (first >>= next) = .error error) :
    first = .error error ∨ ∃ middle, first = .ok middle ∧ next middle = .error error := by
  rcases first with other | middle
  · cases failure
    exact .inl rfl
  · exact .inr ⟨middle, rfl, failure⟩

/-! ## Member chains -/

namespace Expr

theorem access_concat (names : List String) (name : String) :
    access (names ++ [name]) = .member (access names) name := by
  simp [access, List.foldl_append]

theorem access_of_ne_nil {names : List String} (nonempty : names ≠ []) :
    ∃ target name, access names = .member target name := by
  obtain ⟨before, name, rfl⟩ := (List.eq_nil_or_concat names).resolve_left nonempty
  rw [List.concat_eq_append]
  exact ⟨access before, name, access_concat before name⟩

theorem chainFrom?_access (names : List String) : (access names).chainFrom? = some names := by
  induction names using List.reverseRecOn with
  | nil => rfl
  | append_singleton names name ih => rw [access_concat, chainFrom?, ih, Option.map_some]

theorem access_of_chain : ∀ {e : Expr} {names : List String},
    e.chainFrom? = some names → e = access names
  | .parameter, _, chain => by
    cases chain
    rfl
  | .member target name, _, chain => by
    obtain ⟨before, targetChain, rfl⟩ := Option.map_eq_some_iff.mp chain
    rw [access_concat, ← access_of_chain targetChain]

/-- The expressions with a member chain are the accesses to at least one name. -/
theorem memberChain?_eq_some_iff (e : Expr) (names : List String) :
    e.memberChain? = some names ↔ names ≠ [] ∧ e = access names := by
  constructor
  · intro chain
    cases e with
    | member target name =>
      have whole : (Expr.member target name).chainFrom? = some names := chain
      have accessed := access_of_chain whole
      refine ⟨?_, accessed⟩
      rintro rfl
      cases accessed
    | _ => cases chain
  · rintro ⟨nonempty, rfl⟩
    obtain ⟨target, name, accessed⟩ := access_of_ne_nil nonempty
    have whole := chainFrom?_access names
    rw [accessed] at whole ⊢
    exact whole

end Expr

namespace Scope

variable {mapping : FieldMapping} {scope : Scope} {e : Expr}

/-- The expression is a member chain from the parameter on that resolves in the scope. -/
def Resolves (mapping : FieldMapping) (scope : Scope) (e : Expr) : Prop :=
  ∃ names field, names ≠ [] ∧ e = .access names ∧ scope.resolve mapping names = .ok field

theorem resolves_iff : scope.Resolves mapping e ↔ ∃ field, scope.resolveExpr mapping e = .ok field := by
  constructor
  · rintro ⟨names, field, nonempty, accessed, resolved⟩
    have chain := (Expr.memberChain?_eq_some_iff e names).mpr ⟨nonempty, accessed⟩
    refine ⟨field, ?_⟩
    rw [resolveExpr, chain]
    exact resolved
  · rintro ⟨field, resolved⟩
    unfold resolveExpr at resolved
    split at resolved
    next names chain =>
      obtain ⟨nonempty, accessed⟩ := (Expr.memberChain?_eq_some_iff e names).mp chain
      exact ⟨names, field, nonempty, accessed, resolved⟩
    · cases resolved

/-- Only member accesses resolve. -/
theorem Resolves.member (resolves : scope.Resolves mapping e) :
    ∃ target name, e = .member target name := by
  obtain ⟨names, field, nonempty, rfl, -⟩ := resolves
  exact Expr.access_of_ne_nil nonempty

end Scope

/-! ## Constants -/

namespace Literal

mutual

/-- The binary64 numbers in a constant, at any depth of arrays. -/
def floats : Literal → List Double
  | .float value => [value]
  | .array items => floatsOfItems items
  | _ => []

/-- The binary64 numbers in the items of an array. -/
def floatsOfItems : List Literal → List Double
  | [] => []
  | item :: rest => floats item ++ floatsOfItems rest

end

/-- Every number in the constant is finite. -/
def Finite (value : Literal) : Prop :=
  ∀ x ∈ value.floats, x.isFinite = true

instance (value : Literal) : Decidable value.Finite :=
  inferInstanceAs (Decidable (∀ x ∈ value.floats, _))

theorem forall_floatsOfItems (items : List Literal) :
    (∀ x ∈ floatsOfItems items, x.isFinite = true) ↔ ∀ item ∈ items, item.Finite := by
  induction items with
  | nil => simp [floatsOfItems]
  | cons item rest ih =>
    rw [floatsOfItems, List.forall_mem_append, ih, List.forall_mem_cons]
    rfl

/-- An array is finite if its items are. -/
theorem finite_array (items : List Literal) :
    (Literal.array items).Finite ↔ ∀ item ∈ items, item.Finite := by
  rw [Finite, floats]
  exact forall_floatsOfItems items

mutual

/-- A constant has a document form if and only if it is finite. -/
theorem isSome_document? : ∀ value : Literal, value.document?.isSome = true ↔ value.Finite
  | .float value => by
    cases finite : value.isFinite <;> simp [document?, Finite, floats, finite]
  | .array items => by
    rw [document?, Option.isSome_map, isSome_documents? items, finite_array]
  | .null | .bool _ | .int _ | .uint _ | .string _ | .date _ | .uuid _ | .objectId _ => by
    simp [document?, Finite, floats]

theorem isSome_documents? : ∀ items : List Literal,
    (documents? items).isSome = true ↔ ∀ item ∈ items, item.Finite
  | [] => by simp [documents?]
  | item :: rest => by
    have first := isSome_document? item
    have others := isSome_documents? rest
    rw [List.forall_mem_cons, ← first, ← others, documents?]
    cases item.document? <;> cases documents? rest <;> simp

end

end Literal

theorem constantForm_succeeds_iff (value : Literal) :
    (∃ form, constantForm value = .ok form) ↔ value.Finite := by
  rw [← Literal.isSome_document?, constantForm]
  cases value.document? <;> simp

theorem constantForms_succeeds_iff (values : List Literal) :
    (∃ forms, constantForms values = .ok forms) ↔ ∀ value ∈ values, value.Finite := by
  induction values with
  | nil => simp [constantForms, pure, Except.pure]
  | cons value rest ih =>
    rw [List.forall_mem_cons, ← constantForm_succeeds_iff, ← ih, constantForms, List.mapM_cons,
      bind_succeeds_iff]
    constructor
    · rintro ⟨form, formed, forms, success⟩
      obtain ⟨others, formedRest, -⟩ := bind_success success
      exact ⟨⟨form, formed⟩, others, formedRest⟩
    · rintro ⟨⟨form, formed⟩, others, formedRest⟩
      exact ⟨form, formed, bind_succeeds_iff.mpr ⟨others, formedRest, form :: others, rfl⟩⟩

end DocQuery
