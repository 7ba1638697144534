import DocQuery.Proofs.Computed.Selection
import DocQuery.Proofs.Scope.Walk

/-!
# Scopes behind selections

Behind a selection names are resolved against shapes, while the driver finds values in
the documents that the selection has made. `selectStage_scope` shows that the two agree.
A chain resolves behind a selection exactly if it leads through constructed members to
an expression, or to a member access below which the names left over resolve in the
scope of the selection; what lies at the resolved path is the value of that expression,
or of that access with the names left over. This holds in every scope, so it holds
behind any number of selections.
-/
namespace DocQuery

namespace Expr

/-- Where a chain of names leads through constructed members: the expression there and
the names that are left over at a member access. -/
def follow : Expr → List String → Option (Expr × List String)
  | e, [] => some (e, [])
  | .construct members, name :: rest => (Assoc.get? members name).bind fun e => follow e rest
  | .member target name, rest => some (.member target name, rest)
  | _, _ :: _ => none

/-- An expression under a sequence of names, each constructed in a document of its own. -/
def nestUnder (names : List String) (e : Expr) : Expr :=
  names.foldr (fun name inner => .construct [(name, inner)]) e

theorem undotted_nestUnder {names : List String} {e : Expr}
    (segments : ∀ name ∈ names, Dotted.Undotted name)
    (undotted : ∀ member ∈ e.constructed, Dotted.Undotted member.1) :
    ∀ member ∈ (nestUnder names e).constructed, Dotted.Undotted member.1 := by
  induction names with
  | nil => exact undotted
  | cons name rest ih =>
    have below := ih fun other listed => segments other (by simp [listed])
    intro member listed
    simp only [nestUnder, List.foldr_cons, constructed, constructedMembers, List.append_nil,
      List.mem_cons] at listed
    rcases listed with rfl | listed
    · exact segments name (by simp)
    · exact below member listed

end Expr

namespace Scope

section

variable (mapping : FieldMapping) (scope : Scope)

/-- A selection as constructions alone: a bare member is constructed along the segments
of its path. -/
def spread (projection : Expr) : Expr :=
  match scope.resolveExpr mapping projection with
  | .ok field => .nestUnder (Dotted.segments field.path) projection
  | .error _ => projection

/-- No name is left over at an expression, or it is a member access below which the names
left over resolve. -/
def Reaches (e : Expr) (rest : List String) : Prop :=
  rest = [] ∨ ∃ names field, e.memberChain? = some names ∧
    scope.resolve mapping (names ++ rest) = .ok field

/-- A chain leads through a selection to an expression in it, or below a member access with
the names that are left over. -/
def Leads (projection : Expr) (chain : List String) (e : Expr) (rest : List String) : Prop :=
  (scope.spread mapping projection).follow chain = some (e, rest) ∧ scope.Reaches mapping e rest

/-- The value of an expression, or what lies below a member access along the names that
are left over. -/
def valueBelow (document : Json) (e : Expr) (rest : List String) : Option Json :=
  match e.memberChain? with
  | some names =>
    match scope.resolve mapping (names ++ rest) with
    | .ok field => document.lookup field.path
    | .error _ => none
  | none => scope.valueOf mapping document e

end

variable {mapping : FieldMapping} {scope : Scope}

theorem chain_of_resolveExpr {e : Expr} {field : ResolvedField}
    (resolved : scope.resolveExpr mapping e = .ok field) :
    ∃ names, e.memberChain? = some names ∧ scope.resolve mapping names = .ok field := by
  unfold resolveExpr at resolved
  split at resolved
  next names chain => exact ⟨names, chain, resolved⟩
  · cases resolved

theorem valueBelow_nil (document : Json) (e : Expr) :
    scope.valueBelow mapping document e [] = scope.valueOf mapping document e := by
  unfold valueBelow
  cases chain : e.memberChain? with
  | none => rfl
  | some names =>
    cases e with
    | member target name =>
      cases resolved : scope.resolve mapping names with
      | error error => simp only [valueOf, read, resolveExpr, chain, List.append_nil, resolved]
      | ok field => simp only [valueOf, read, resolveExpr, chain, List.append_nil, resolved]
    | _ => cases chain

mutual

/-- The value of an accepted projection has a shape. -/
theorem shapeOf_of_computed : ∀ (e : Expr) (v : Computed), scope.computed mapping e = .ok v →
    ∃ shape, scope.shapeOf mapping e = .ok shape
  | .member target name, v, accepted => by
    obtain ⟨field, resolved, -⟩ := computed_member_success accepted
    exact ⟨field.shape, by rw [shapeOf, resolved]; rfl⟩
  | .construct members, v, accepted => by
    obtain ⟨values, membersOk, -⟩ := computed_construct_success accepted
    obtain ⟨shapes, shaped⟩ := shapesOf_of_computedMembers members [] values membersOk
    exact ⟨.document shapes, by rw [shapeOf, shaped]; rfl⟩
  | .parameter, _, _ | .constant _, _, _ | .compare _ _ _, _, _ | .logical _ _ _, _, _
  | .not _, _, _ | .call _ _ _, _, _ => ⟨.scalar, by simp [shapeOf]⟩

/-- The same of constructed members. -/
theorem shapesOf_of_computedMembers :
    ∀ (members : List (String × Expr)) (named : List String) (values : List (String × Computed)),
      scope.computedMembers mapping named members = .ok values →
        ∃ shapes, scope.shapesOf mapping members = .ok shapes
  | [], _, _, _ => ⟨[], by rw [shapesOf]⟩
  | (name, e) :: rest, named, values, accepted => by
    obtain ⟨-, v, others, first, restOk, -⟩ := computedMembers_cons_success accepted
    obtain ⟨shape, shaped⟩ := shapeOf_of_computed e v first
    obtain ⟨shapes, restShaped⟩ := shapesOf_of_computedMembers rest (name :: named) others restOk
    exact ⟨(name, shape) :: shapes, by rw [shapesOf, shaped, restShaped]; rfl⟩

end

/-- There is a scope behind every accepted selection. -/
theorem project_of_selected {projection : Expr} {values : List (String × Computed)}
    (chosen : scope.selected mapping projection = .ok values) :
    ∃ next, scope.project mapping projection = .ok next := by
  rcases selected_success chosen with
    ⟨target, name, field, rfl, resolved, -⟩ | ⟨members, rfl, membersOk⟩
  · refine ⟨.projection (.nested (Dotted.segments field.path) field.shape), ?_⟩
    rw [project, resolved]
    rfl
  · obtain ⟨shapes, shaped⟩ := shapesOf_of_computedMembers members [] values membersOk
    refine ⟨.projection (.document shapes), ?_⟩
    simp only [project, shapeOf, shaped]
    rfl

/-- The shape under a name is the shape of the member that is constructed under it. -/
theorem get?_shapesOf {members : List (String × Expr)} {shapes : List (String × Shape)}
    (shaped : scope.shapesOf mapping members = .ok shapes) (name : String) :
    (Assoc.get? shapes name).map .ok = (Assoc.get? members name).map (scope.shapeOf mapping) := by
  induction members generalizing shapes with
  | nil =>
    rw [shapesOf] at shaped
    cases shaped
    rfl
  | cons pair rest ih =>
    obtain ⟨key, e⟩ := pair
    rw [shapesOf] at shaped
    obtain ⟨shape, first, shaped⟩ := bind_success shaped
    obtain ⟨others, restShaped, shaped⟩ := bind_success shaped
    cases shaped
    rw [Assoc.get?, Assoc.get?]
    split
    · exact congrArg some first.symm
    · exact ih restShaped

theorem get?_membersOf_of_absent (document : Json) {members : List (String × Expr)}
    {name : String} (absent : name ∉ members.map Prod.fst) :
    Assoc.get? (scope.membersOf mapping document members) name = none := by
  induction members with
  | nil => rw [membersOf, Assoc.get?]
  | cons pair rest ih =>
    obtain ⟨key, e⟩ := pair
    simp only [List.map_cons, List.mem_cons, not_or] at absent
    rw [membersOf]
    cases scope.valueOf mapping document e with
    | none => exact ih absent.2
    | some found =>
      rw [Assoc.get?, if_neg (Ne.symm absent.1)]
      exact ih absent.2

/-- The value under a name is the value of the member that is constructed under it. -/
theorem get?_membersOf (document : Json) {members : List (String × Expr)}
    (distinct : (members.map Prod.fst).Nodup) (name : String) :
    Assoc.get? (scope.membersOf mapping document members) name =
      (Assoc.get? members name).bind (scope.valueOf mapping document) := by
  induction members with
  | nil =>
    rw [membersOf]
    rfl
  | cons pair rest ih =>
    obtain ⟨key, e⟩ := pair
    rw [List.map_cons, List.nodup_cons] at distinct
    rw [membersOf, Assoc.get?]
    by_cases here : key = name
    · subst here
      rw [if_pos rfl, Option.bind_some]
      cases scope.valueOf mapping document e with
      | none => exact get?_membersOf_of_absent document distinct.1
      | some found => rw [Assoc.get?, if_pos rfl]
    · rw [if_neg here, ← ih distinct.2]
      cases scope.valueOf mapping document e with
      | none => rfl
      | some found => rw [Assoc.get?, if_neg here]

/-- What an accepted construction has under the name of a member: an accepted value with
its shape. -/
theorem construct_member {members : List (String × Expr)} {values : List (String × Computed)}
    {shapes : List (String × Shape)} {name : String} {e : Expr}
    (accepted : scope.computedMembers mapping [] members = .ok values)
    (shaped : scope.shapesOf mapping members = .ok shapes)
    (known : Assoc.get? members name = some e) :
    ∃ v shape, scope.computed mapping e = .ok v ∧ scope.shapeOf mapping e = .ok shape ∧
      Assoc.get? shapes name = some shape := by
  have listed := Expr.mem_constructedMembers (Assoc.mem_of_get? known)
  obtain ⟨v, first⟩ := computed_of_constructedMembers members [] values accepted _ listed
  have same := get?_shapesOf shaped name
  rw [known, Option.map_some] at same
  obtain ⟨shape, found, here⟩ := Option.map_eq_some_iff.mp same
  exact ⟨v, shape, first, here.symm, found⟩

/-- A chain leads from an expression to another one or below a member access, and names lead to
the value there. -/
def Locates (mapping : FieldMapping) (scope : Scope) (e : Expr) (chain names : List String) :
    Prop :=
  ∃ inner rest, e.follow chain = some (inner, rest) ∧ scope.Reaches mapping inner rest ∧
    ∀ document,
      (scope.valueOf mapping document e).bind (·.getIn (names.flatMap Dotted.segments)) =
        scope.valueBelow mapping document inner rest

theorem locates_nil (e : Expr) : scope.Locates mapping e [] [] := by
  refine ⟨e, [], by rw [Expr.follow], .inl rfl, fun document => ?_⟩
  rw [valueBelow_nil]
  cases scope.valueOf mapping document e <;> rfl

/-- Below a member access the chain goes on from the field, where the scope resolves the rest. -/
theorem locates_member {target : Expr} {last name declared : String} {rest names : List String}
    {leaf : Shape} {field : ResolvedField}
    (resolved : scope.resolveExpr mapping (.member target last) = .ok field)
    (walked : walkShape mapping declared field.shape (name :: rest) = .ok (names, leaf)) :
    scope.Locates mapping (.member target last) (name :: rest) names := by
  obtain ⟨before, access, above⟩ := chain_of_resolveExpr resolved
  obtain ⟨lower, below, values⟩ := resolve_append_of_walkShape above walked
  have followed : (Expr.member target last).follow (name :: rest) =
      some (.member target last, name :: rest) := by
    rw [Expr.follow]
    simp
  refine ⟨_, _, followed, .inr ⟨before, lower, access, below⟩, fun document => ?_⟩
  simp only [valueBelow, access, below, values, valueOf, read_of_resolved resolved]

/-- Through a construction the chain goes on from the member of its first name. -/
theorem locates_construct {members : List (String × Expr)} {name : String} {inner : Expr}
    {rest below : List String} (distinct : (members.map Prod.fst).Nodup)
    (known : Assoc.get? members name = some inner) (undotted : Dotted.Undotted name)
    (locates : scope.Locates mapping inner rest below) :
    scope.Locates mapping (.construct members) (name :: rest) (name :: below) := by
  obtain ⟨target, left, followed, reached, lookedUp⟩ := locates
  have through : (Expr.construct members).follow (name :: rest) = some (target, left) := by
    rw [Expr.follow, known]
    exact followed
  refine ⟨target, left, through, reached, fun document => ?_⟩
  rw [← lookedUp, List.flatMap_cons, Dotted.segments_of_undotted undotted, valueOf,
    Option.bind_some, List.singleton_append, Json.getIn, get?_membersOf document distinct,
    known, Option.bind_some]

/-- A walk through the shape of a construction goes through one of its members. -/
theorem walkShape_construct_success {members : List (String × Expr)}
    {values : List (String × Computed)} {shapes : List (String × Shape)}
    {name declared : String} {rest names : List String} {leaf : Shape}
    (accepted : scope.computedMembers mapping [] members = .ok values)
    (shaped : scope.shapesOf mapping members = .ok shapes)
    (walked : walkShape mapping declared (.document shapes) (name :: rest) = .ok (names, leaf)) :
    ∃ inner v shape below, Assoc.get? members name = some inner ∧
      scope.computed mapping inner = .ok v ∧ scope.shapeOf mapping inner = .ok shape ∧
      walkShape mapping (declared ++ "." ++ name) shape rest = .ok (below, leaf) ∧
      names = name :: below := by
  rw [walkShape_cons] at walked
  cases known : Assoc.get? members name with
  | none =>
    have absent := get?_shapesOf shaped name
    rw [known, Option.map_none, Option.map_eq_none_iff] at absent
    rw [absent] at walked
    cases walked
  | some inner =>
    obtain ⟨v, shape, first, here, found⟩ := construct_member accepted shaped known
    rw [found] at walked
    obtain ⟨⟨below, last⟩, walked, named⟩ := bind_success walked
    cases named
    exact ⟨inner, v, shape, below, rfl, first, here, walked, rfl⟩

/-- A walk through the shape of an accepted projection leads to an expression or below a
member access, and the names found lead to the value there. -/
theorem locates_of_walkShape {e : Expr} {v : Computed} {shape : Shape} {declared : String}
    {chain names : List String} {leaf : Shape} (accepted : scope.computed mapping e = .ok v)
    (undotted : ∀ member ∈ e.constructed, Dotted.Undotted member.1)
    (shaped : scope.shapeOf mapping e = .ok shape)
    (walked : walkShape mapping declared shape chain = .ok (names, leaf)) :
    scope.Locates mapping e chain names := by
  induction chain generalizing e v shape declared names leaf with
  | nil =>
    rw [walkShape_nil] at walked
    cases walked
    exact locates_nil e
  | cons name rest ih =>
    cases e with
    | member target last =>
      obtain ⟨field, resolved, -⟩ := computed_member_success accepted
      rw [shapeOf, resolved] at shaped
      cases shaped
      exact locates_member resolved walked
    | construct members =>
      obtain ⟨values, membersOk, -⟩ := computed_construct_success accepted
      obtain ⟨-, distinct, -⟩ := names_of_computedMembers membersOk
      rw [shapeOf] at shaped
      obtain ⟨shapes, shapesOk, shaped⟩ := bind_success shaped
      cases shaped
      obtain ⟨inner, w, innerShape, below, known, first, here, onward, rfl⟩ :=
        walkShape_construct_success membersOk shapesOk walked
      have listed := Assoc.mem_of_get? known
      have within : ∀ member ∈ inner.constructed, Dotted.Undotted member.1 := fun member built =>
        undotted member (Expr.mem_constructedMembers_of_value listed built)
      exact locates_construct distinct known (undotted _ (Expr.mem_constructedMembers listed))
        (ih first within here onward)
    | _ =>
      simp only [shapeOf] at shaped
      cases shaped
      cases walked

/-- Wherever a chain leads through an accepted projection, a walk through its shape
succeeds. -/
theorem walkShape_of_reaches {e inner : Expr} {v : Computed} {shape : Shape} {declared : String}
    {chain rest : List String} (accepted : scope.computed mapping e = .ok v)
    (shaped : scope.shapeOf mapping e = .ok shape) (followed : e.follow chain = some (inner, rest))
    (reached : scope.Reaches mapping inner rest) :
    ∃ names leaf, walkShape mapping declared shape chain = .ok (names, leaf) := by
  induction chain generalizing e v shape declared with
  | nil => exact ⟨[], shape, walkShape_nil declared shape⟩
  | cons name others ih =>
    cases e with
    | member target last =>
      rw [Expr.follow] at followed
      · cases followed
        obtain ⟨field, resolved, -⟩ := computed_member_success accepted
        rw [shapeOf, resolved] at shaped
        cases shaped
        obtain ⟨before, access, above⟩ := chain_of_resolveExpr resolved
        rcases reached with nothing | ⟨names, lower, sameAccess, below⟩
        · cases nothing
        · cases access.symm.trans sameAccess
          obtain ⟨⟨found, leaf⟩, walked⟩ := walkShape_of_resolve_append declared above below
          exact ⟨found, leaf, walked⟩
      · simp
    | construct members =>
      rw [Expr.follow] at followed
      obtain ⟨target, known, followed⟩ := Option.bind_eq_some_iff.mp followed
      obtain ⟨values, membersOk, -⟩ := computed_construct_success accepted
      rw [shapeOf] at shaped
      obtain ⟨shapes, shapesOk, shaped⟩ := bind_success shaped
      cases shaped
      obtain ⟨v, shape, first, here, found⟩ := construct_member membersOk shapesOk known
      obtain ⟨names, leaf, walked⟩ :=
        @ih target v shape (declared ++ "." ++ name) first here followed
      exact ⟨name :: names, leaf, by rw [walkShape_cons, found]; simp only [walked]; rfl⟩
    | _ => cases followed

theorem shapeOf_nestUnder {e : Expr} {shape : Shape} (names : List String)
    (shaped : scope.shapeOf mapping e = .ok shape) :
    scope.shapeOf mapping (.nestUnder names e) = .ok (.nested names shape) := by
  induction names with
  | nil => exact shaped
  | cons name rest ih =>
    rw [Expr.nestUnder, List.foldr_cons, shapeOf, shapesOf, shapesOf]
    simp only [Expr.nestUnder] at ih
    rw [ih]
    rfl

theorem computed_nestUnder {e : Expr} {v : Computed} (names : List String)
    (accepted : scope.computed mapping e = .ok v) :
    ∃ w, scope.computed mapping (.nestUnder names e) = .ok w := by
  induction names with
  | nil => exact ⟨v, accepted⟩
  | cons name rest ih =>
    obtain ⟨w, below⟩ := ih
    refine ⟨.construct [(name, w)], ?_⟩
    rw [Expr.nestUnder, List.foldr_cons, computed, computedMembers, if_neg List.not_mem_nil]
    simp only [Expr.nestUnder] at below
    rw [below, computedMembers]
    rfl

theorem valueOf_nestUnder {document found : Json} {e : Expr} (names : List String)
    (present : scope.valueOf mapping document e = some found) :
    scope.valueOf mapping document (.nestUnder names e) = some (.nest names found) := by
  induction names with
  | nil => exact present
  | cons name rest ih =>
    rw [Expr.nestUnder, List.foldr_cons, valueOf, membersOf, membersOf]
    simp only [Expr.nestUnder] at ih
    rw [ih]
    rfl

/-- An accepted selection and its constructions: they are accepted and have the shape of
the scope behind the selection, and their value is the document that the selection
describes, unless the selection is a bare member that finds nothing. -/
theorem spread_of_selected {projection : Expr} {values : List (String × Computed)}
    (chosen : scope.selected mapping projection = .ok values)
    (undotted : ∀ member ∈ projection.constructed, Dotted.Undotted member.1) :
    ∃ v shape, scope.computed mapping (scope.spread mapping projection) = .ok v ∧
      (∀ member ∈ (scope.spread mapping projection).constructed, Dotted.Undotted member.1) ∧
      scope.shapeOf mapping (scope.spread mapping projection) = .ok shape ∧
      scope.project mapping projection = .ok (.projection shape) ∧
      ∀ document,
        if projection.isAccess && (scope.read mapping document projection).isNone then
          scope.described mapping document projection = .obj []
        else scope.valueOf mapping document (scope.spread mapping projection) =
          some (scope.described mapping document projection) := by
  rcases selected_success chosen with
    ⟨target, name, field, rfl, resolved, -⟩ | ⟨members, rfl, membersOk⟩
  · have accepted : scope.computed mapping (.member target name) = .ok (.field field.path) := by
      rw [computed, resolved]
      rfl
    have shaped : scope.shapeOf mapping (.member target name) = .ok field.shape := by
      rw [shapeOf, resolved]
      rfl
    have spread : scope.spread mapping (.member target name) =
        .nestUnder (Dotted.segments field.path) (.member target name) := by
      simp only [Scope.spread, resolved]
    obtain ⟨v, whole⟩ := computed_nestUnder (Dotted.segments field.path) accepted
    rw [spread]
    refine ⟨v, _, whole, ?_, shapeOf_nestUnder _ shaped, ?_, ?_⟩
    · exact Expr.undotted_nestUnder (fun _ => Dotted.undotted_of_mem_segments) undotted
    · simp only [project, resolved]
      rfl
    · intro document
      simp only [Expr.isAccess, Bool.true_and, described, resolved, read_of_resolved resolved]
      cases found : document.lookup field.path with
      | none => rfl
      | some value =>
        have present : scope.valueOf mapping document (.member target name) = some value := by
          rw [valueOf, read_of_resolved resolved, found]
        exact valueOf_nestUnder (Dotted.segments field.path) present
  · have accepted : scope.computed mapping (.construct members) = .ok (.construct values) := by
      rw [computed, membersOk]
      rfl
    obtain ⟨shape, shaped⟩ := shapeOf_of_computed _ _ accepted
    refine ⟨.construct values, shape, accepted, undotted, shaped, ?_, ?_⟩
    · simp only [project, shaped]
      rfl
    · intro document
      simp only [spread, resolveExpr, Expr.memberChain?, valueOf]
      rfl

end Scope

/-- The scope behind an accepted selection is sound and complete. A chain resolves in it
exactly if it leads through the selection to an expression or below a member access; and
what lies at the path in the projected document is then the value there, except that a bare
member that finds nothing leaves the empty document, in which nothing lies. -/
theorem selectStage_scope (context : Context) (projection : Expr) (body : Members)
    (accepted : context.selectStage projection = .ok ⟨"$project", .obj body⟩)
    (plain : projection.PlainNames) :
    ∃ next, context.scope.project context.mapping projection = .ok next ∧
      ∀ chain : List String, chain ≠ [] →
        ((∃ field, next.resolve context.mapping chain = .ok field) ↔
          ∃ e rest, context.scope.Leads context.mapping projection chain e rest) ∧
        ∀ field, next.resolve context.mapping chain = .ok field →
          ∃ e rest, context.scope.Leads context.mapping projection chain e rest ∧
            ∀ document, ∃ output, Project.project document body = .ok output ∧
              output.lookup field.path =
                if projection.isAccess &&
                    (context.scope.read context.mapping document projection).isNone then none
                else context.scope.valueBelow context.mapping document e rest := by
  obtain ⟨values, chosen, -⟩ := Context.selectStage_success accepted
  obtain ⟨v, shape, whole, undotted, shaped, next, value⟩ :=
    Scope.spread_of_selected chosen fun member listed => (plain member listed).1
  refine ⟨.projection shape, next, ?_⟩
  intro chain nonempty
  constructor
  · constructor
    · rintro ⟨field, resolved⟩
      obtain ⟨-, names, walked, -⟩ := Scope.resolve_success resolved
      obtain ⟨e, rest, followed, reached, -⟩ :=
        Scope.locates_of_walkShape whole undotted shaped walked
      exact ⟨e, rest, followed, reached⟩
    · rintro ⟨e, rest, followed, reached⟩
      obtain ⟨names, leaf, walked⟩ := Scope.walkShape_of_reaches whole shaped followed reached
      exact ⟨_, Scope.resolve_of_walkShape nonempty walked⟩
  · intro field resolved
    obtain ⟨-, names, walked, path⟩ := Scope.resolve_success resolved
    have found := Scope.names_of_walkShape walked nonempty
    obtain ⟨e, rest, followed, reached, lookedUp⟩ :=
      Scope.locates_of_walkShape whole undotted shaped walked
    refine ⟨e, rest, ⟨followed, reached⟩, ?_⟩
    intro document
    refine ⟨_, Context.project_of_selectStage accepted plain document, ?_⟩
    have described := value document
    split at described
    next missing => rw [described, if_pos missing, Json.lookup_empty]
    next present =>
      rw [if_neg present, ← lookedUp document, described, path, Json.lookup_join _ found,
        Option.bind_some]

/-- A person's address as a whole beside the city in it. -/
def moved : Expr :=
  .construct [("Home", .field "Address"), ("Place", .construct [("City", .field "Address.City")])]

/-- The body of the selection. -/
def movedBody : Members :=
  [("Home", .str "$Address"), ("Place", .obj [("City", .str "$Address.place.city")]),
    ("_id", .num (.int 0))]

/-- A copied address keeps the stored name of its city. -/
theorem selectStage_scope_moved :
    peopleMerged.selectStage moved = .ok ⟨"$project", .obj movedBody⟩ ∧ moved.PlainNames ∧
      ∃ next field, peopleMerged.scope.project people moved = .ok next ∧
        next.resolve people ["Home", "City"] = .ok field ∧ field.path = "Home.place.city" ∧
        ∃ output, Project.project commuter movedBody = .ok output ∧
          output.lookup field.path = some (.arr [.str "Bonn", .str "Ulm"]) := by
  have accepted : peopleMerged.selectStage moved = .ok ⟨"$project", .obj movedBody⟩ := rfl
  have plain : moved.PlainNames := by decide
  obtain ⟨next, behind, scope⟩ := selectStage_scope _ _ _ accepted plain
  have known : peopleMerged.scope.project people moved = .ok (.projection (.document
      [("Home", .entity "Address"), ("Place", .document [("City", .scalar)])])) := rfl
  cases known.symm.trans behind
  have resolved : Scope.resolve people (.projection (.document
      [("Home", .entity "Address"), ("Place", .document [("City", .scalar)])])) ["Home", "City"] =
      .ok ⟨"Home.place.city", .scalar⟩ := rfl
  obtain ⟨e, rest, ⟨followed, -⟩, values⟩ := (scope _ (by decide)).2 _ resolved
  have leads : (peopleMerged.scope.spread people moved).follow ["Home", "City"] =
      some (.field "Address", ["City"]) := rfl
  cases leads.symm.trans followed
  obtain ⟨output, projected, found⟩ := values commuter
  exact ⟨accepted, plain, _, _, known, resolved, rfl, output, projected, found⟩

/-- Constructions along the path of a bare member would leave documents where the member
finds nothing: behind `City` of an address, the address of the empty document is not
`{"place": {}}` but missing. -/
theorem selectStage_scope_not_for_missing_members :
    ¬ ∀ (context : Context) (projection : Expr) (body : Members) (next : Scope)
        (chain : List String) (field : ResolvedField) (e : Expr) (rest : List String),
      context.selectStage projection = .ok ⟨"$project", .obj body⟩ → projection.PlainNames →
      context.scope.project context.mapping projection = .ok next → chain ≠ [] →
      next.resolve context.mapping chain = .ok field →
      context.scope.Leads context.mapping projection chain e rest →
      ∀ document output, Project.project document body = .ok output →
        output.lookup field.path = context.scope.valueBelow context.mapping document e rest := by
  intro always
  have nothing := always peopleMerged (.field "Address.City")
    [("Address.place.city", .str "$Address.place.city"), ("_id", .num (.int 0))]
    (.projection (.nested ["Address", "place", "city"] .scalar)) ["Address"]
    ⟨"Address", .nested ["place", "city"] .scalar⟩
    (.nestUnder ["place", "city"] (.field "Address.City")) []
    rfl (by decide) rfl (by decide) rfl ⟨rfl, .inl rfl⟩ (.obj []) (.obj []) rfl
  have found : (none : Option Json) = some (.obj [("place", .obj [])]) := nothing
  cases found

end DocQuery
