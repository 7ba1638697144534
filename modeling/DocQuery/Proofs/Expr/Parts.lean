import DocQuery.Compile.Scope
import DocQuery.Document.Sigil
import DocQuery.Proofs.Document.Paths

/-!
# Parts of expressions

The member accesses of an expression and the members that it constructs, at any
depth, and the value a member access finds in a document once its chain of names
is resolved in a scope. Operators begin with a dollar sign.
-/
namespace DocQuery

theorem CompareOp.marked_operator (op : CompareOp) : Sigil.isMarked op.operator = true := by
  cases op <;> decide

theorem LogicalOp.marked_operator (op : LogicalOp) : Sigil.isMarked op.operator = true := by
  cases op <;> decide

namespace Expr

mutual

/-- The member accesses in an expression, each with all its names. -/
def accesses : Expr → List Expr
  | .parameter => []
  | .member target name => [.member target name]
  | .constant _ => []
  | .compare _ left right => left.accesses ++ right.accesses
  | .logical _ left right => left.accesses ++ right.accesses
  | .not inner => inner.accesses
  | .construct members => accessesOfMembers members
  | .call _ target arguments => target.accesses ++ accessesOfItems arguments

/-- The member accesses in the values of constructed members. -/
def accessesOfMembers : List (String × Expr) → List Expr
  | [] => []
  | (_, value) :: rest => value.accesses ++ accessesOfMembers rest

/-- The member accesses in the arguments of a call. -/
def accessesOfItems : List Expr → List Expr
  | [] => []
  | item :: rest => item.accesses ++ accessesOfItems rest

end

mutual

/-- The members that an expression constructs, at any depth. -/
def constructed : Expr → List (String × Expr)
  | .parameter => []
  | .member target _ => target.constructed
  | .constant _ => []
  | .compare _ left right => left.constructed ++ right.constructed
  | .logical _ left right => left.constructed ++ right.constructed
  | .not inner => inner.constructed
  | .construct members => constructedMembers members
  | .call _ target arguments => target.constructed ++ constructedItems arguments

/-- Constructed members and those in their values. -/
def constructedMembers : List (String × Expr) → List (String × Expr)
  | [] => []
  | (name, value) :: rest => (name, value) :: (value.constructed ++ constructedMembers rest)

/-- The constructed members in the arguments of a call. -/
def constructedItems : List Expr → List (String × Expr)
  | [] => []
  | item :: rest => item.constructed ++ constructedItems rest

end

theorem mem_constructedMembers {members : List (String × Expr)} {member : String × Expr}
    (listed : member ∈ members) : member ∈ constructedMembers members := by
  induction members with
  | nil => cases listed
  | cons first rest ih =>
    obtain ⟨name, value⟩ := first
    rw [constructedMembers]
    rcases List.mem_cons.mp listed with rfl | listed
    · simp
    · simp [ih listed]

theorem mem_constructedMembers_of_value {members : List (String × Expr)} {name : String}
    {value : Expr} (listed : (name, value) ∈ members) {member : String × Expr}
    (inner : member ∈ value.constructed) : member ∈ constructedMembers members := by
  induction members with
  | nil => cases listed
  | cons first rest ih =>
    obtain ⟨key, other⟩ := first
    rw [constructedMembers]
    rcases List.mem_cons.mp listed with same | listed
    · cases same
      simp [inner]
    · simp [ih listed]

/-- The expression is a member access. -/
def isAccess : Expr → Bool
  | .member _ _ => true
  | _ => false

/-- Every constructed name is one segment of a path and no operator. -/
def PlainNames (e : Expr) : Prop :=
  ∀ member ∈ e.constructed, Dotted.Undotted member.1 ∧ Sigil.isMarked member.1 = false

instance (e : Expr) : Decidable e.PlainNames :=
  inferInstanceAs (Decidable (∀ member ∈ e.constructed, _))

/-- A chain of names constructs nothing. -/
theorem constructed_of_chain : ∀ {e : Expr} {names : List String},
    e.chainFrom? = some names → e.constructed = []
  | .parameter, _, _ => by rw [constructed]
  | .member target name, _, chain => by
    obtain ⟨before, targetChain, -⟩ := Option.map_eq_some_iff.mp chain
    rw [constructed, constructed_of_chain targetChain]

end Expr

namespace Scope

/-- No member access of an expression resolves to a path that begins with a dollar sign. -/
def PlainPaths (mapping : FieldMapping) (scope : Scope) (e : Expr) : Prop :=
  ∀ access ∈ e.accesses, ∀ field, scope.resolveExpr mapping access = .ok field →
    Sigil.isMarked field.path = false

/-- Only member accesses are resolved. -/
theorem resolveExpr_success {mapping : FieldMapping} {scope : Scope} {e : Expr}
    {field : ResolvedField} (resolved : scope.resolveExpr mapping e = .ok field) :
    ∃ target name, e = .member target name := by
  cases e with
  | member target name => exact ⟨target, name, rfl⟩
  | _ => cases resolved

theorem constructed_of_resolved {mapping : FieldMapping} {scope : Scope} {e : Expr}
    {field : ResolvedField} (resolved : scope.resolveExpr mapping e = .ok field) :
    e.constructed = [] := by
  obtain ⟨target, name, rfl⟩ := resolveExpr_success resolved
  cases chain : (Expr.member target name).chainFrom? with
  | none => simp [resolveExpr, Expr.memberChain?, chain] at resolved
  | some names => exact Expr.constructed_of_chain chain

/-- What a member access finds in a document: the value at the path that it is
resolved to, if there is one. -/
def read (mapping : FieldMapping) (scope : Scope) (document : Json) (access : Expr) :
    Option Json :=
  match scope.resolveExpr mapping access with
  | .ok field => document.lookup field.path
  | .error _ => none

theorem read_of_resolved {mapping : FieldMapping} {scope : Scope} {access : Expr}
    {field : ResolvedField} (resolved : scope.resolveExpr mapping access = .ok field)
    (document : Json) : scope.read mapping document access = document.lookup field.path := by
  simp only [read, resolved]

end Scope
end DocQuery
