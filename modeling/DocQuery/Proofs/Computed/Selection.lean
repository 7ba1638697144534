import DocQuery.Proofs.Computed.Value
import DocQuery.Proofs.Condition.Meaning

/-!
# The meaning of selections

`Scope.valueOf` is the value of an expression in a document, by recursion on the
expression and without its lowered form, and `Scope.described` is the document
that a selection describes. `selectStage_projects` shows that the `$project` stage
of an accepted selection makes exactly this document of every document and never
fails, in every layout, as long as constructed names are no operators and no paths.
-/
namespace DocQuery

namespace Scope

variable (mapping : FieldMapping) (scope : Scope) (document : Json)

mutual

/-- The value of an expression in a document; only a member access can be missing. -/
def valueOf : Expr → Option Json
  | .parameter => none
  | .member target name => scope.read mapping document (.member target name)
  | .constant literal => literal.document?
  | .compare op left right => some (.bool (op.onValues (valueOf left) (valueOf right)))
  | .logical op left right =>
    some (.bool (op.onTruth (Project.argumentIsTruthy (valueOf left))
      (Project.argumentIsTruthy (valueOf right))))
  | .not inner => some (.bool (!Project.argumentIsTruthy (valueOf inner)))
  | .construct members => some (.obj (membersOf members))
  | .call _ _ _ => none

/-- The constructed members that have a value, in order. -/
def membersOf : List (String × Expr) → Members
  | [] => []
  | (name, e) :: rest =>
    match valueOf e with
    | some found => (name, found) :: membersOf rest
    | none => membersOf rest

end

/-- The document that a selection describes: the constructed members, or the value of
a bare member nested under its path. -/
def described (projection : Expr) : Json :=
  match projection with
  | .construct members => .obj (scope.membersOf mapping document members)
  | access =>
    match scope.resolveExpr mapping access with
    | .ok field =>
      match document.lookup field.path with
      | some found => .nest (Dotted.segments field.path) found
      | none => .obj []
    | .error _ => .obj []

end Scope

namespace Scope

variable {mapping : FieldMapping} {scope : Scope}

mutual

/-- A resolved projection has in every document the value of its expression. -/
theorem value_of_computed (document : Json) : ∀ (e : Expr) (v : Computed),
    scope.computed mapping e = .ok v → v.value document = scope.valueOf mapping document e
  | .member target name, v, accepted => by
    obtain ⟨field, resolved, rfl⟩ := computed_member_success accepted
    rw [Computed.value, valueOf, read_of_resolved resolved]
  | .constant literal, v, accepted => by
    obtain ⟨form, formed, rfl⟩ := computed_constant_success accepted
    rw [Computed.value, valueOf, formed]
  | .construct members, v, accepted => by
    obtain ⟨values, membersOk, rfl⟩ := computed_construct_success accepted
    rw [Computed.value, valueOf, values_of_computedMembers document members [] values membersOk]
  | .compare op left right, v, accepted => by
    obtain ⟨first, second, leftOk, rightOk, rfl⟩ := computed_compare_success accepted
    rw [Computed.value, valueOf, value_of_computed document left first leftOk,
      value_of_computed document right second rightOk]
  | .logical op left right, v, accepted => by
    obtain ⟨first, second, leftOk, rightOk, rfl⟩ := computed_logical_success accepted
    rw [Computed.value, valueOf, value_of_computed document left first leftOk,
      value_of_computed document right second rightOk]
  | .not inner, v, accepted => by
    obtain ⟨body, innerOk, rfl⟩ := computed_not_success accepted
    rw [Computed.value, valueOf, value_of_computed document inner body innerOk]
  | .parameter, v, accepted => absurd accepted (computed_parameter_rejected v)
  | .call method target arguments, v, accepted =>
    absurd accepted (computed_call_rejected method target arguments v)

/-- The same of constructed members. -/
theorem values_of_computedMembers (document : Json) :
    ∀ (members : List (String × Expr)) (named : List String) (values : List (String × Computed)),
      scope.computedMembers mapping named members = .ok values →
        Computed.values document values = scope.membersOf mapping document members
  | [], named, values, accepted => by
    rw [computedMembers] at accepted
    cases accepted
    rw [Computed.values, membersOf]
  | (name, e) :: rest, named, values, accepted => by
    obtain ⟨-, v, others, first, restOk, rfl⟩ := computedMembers_cons_success accepted
    have here := value_of_computed document e v first
    have below := values_of_computedMembers document rest (name :: named) others restOk
    cases found : scope.valueOf mapping document e with
    | none => simp only [Computed.values, membersOf, here, found, below]
    | some value => simp only [Computed.values, membersOf, here, found, below]

end

mutual

/-- A resolved projection can be read back if no constructed name is an operator. -/
theorem readable_of_computed : ∀ (e : Expr) (v : Computed),
    scope.computed mapping e = .ok v →
    (∀ member ∈ e.constructed, Sigil.isMarked member.1 = false) → v.Readable
  | .member target name, v, accepted, _ => by
    obtain ⟨field, resolved, rfl⟩ := computed_member_success accepted
    trivial
  | .constant literal, v, accepted, _ => by
    obtain ⟨form, formed, rfl⟩ := computed_constant_success accepted
    exact ⟨literal, formed⟩
  | .construct members, v, accepted, unmarked => by
    obtain ⟨values, membersOk, rfl⟩ := computed_construct_success accepted
    exact readable_of_computedMembers members [] values membersOk unmarked
  | .compare op left right, v, accepted, unmarked => by
    obtain ⟨first, second, leftOk, rightOk, rfl⟩ := computed_compare_success accepted
    rw [Expr.constructed, List.forall_mem_append] at unmarked
    exact ⟨readable_of_computed left first leftOk unmarked.1,
      readable_of_computed right second rightOk unmarked.2⟩
  | .logical op left right, v, accepted, unmarked => by
    obtain ⟨first, second, leftOk, rightOk, rfl⟩ := computed_logical_success accepted
    rw [Expr.constructed, List.forall_mem_append] at unmarked
    exact ⟨readable_of_computed left first leftOk unmarked.1,
      readable_of_computed right second rightOk unmarked.2⟩
  | .not inner, v, accepted, unmarked => by
    obtain ⟨body, innerOk, rfl⟩ := computed_not_success accepted
    exact readable_of_computed inner body innerOk unmarked
  | .parameter, v, accepted, _ => absurd accepted (computed_parameter_rejected v)
  | .call method target arguments, v, accepted, _ =>
    absurd accepted (computed_call_rejected method target arguments v)

/-- The same of constructed members. -/
theorem readable_of_computedMembers :
    ∀ (members : List (String × Expr)) (named : List String) (values : List (String × Computed)),
      scope.computedMembers mapping named members = .ok values →
      (∀ member ∈ Expr.constructedMembers members, Sigil.isMarked member.1 = false) →
        Computed.ReadableMembers values
  | [], named, values, accepted, _ => by
    rw [computedMembers] at accepted
    cases accepted
    trivial
  | (name, e) :: rest, named, values, accepted, unmarked => by
    obtain ⟨-, v, others, first, restOk, rfl⟩ := computedMembers_cons_success accepted
    rw [Expr.constructedMembers, List.forall_mem_cons, List.forall_mem_append] at unmarked
    obtain ⟨here, within, later⟩ := unmarked
    exact ⟨here, readable_of_computed e v first within,
      readable_of_computedMembers rest (name :: named) others restOk later⟩

end

mutual

/-- The value of every constructed member in an accepted expression is accepted. -/
theorem computed_of_constructed : ∀ (e : Expr) (v : Computed),
    scope.computed mapping e = .ok v →
    ∀ member ∈ e.constructed, ∃ inner, scope.computed mapping member.2 = .ok inner
  | .member target name, v, accepted, member, listed => by
    obtain ⟨field, resolved, rfl⟩ := computed_member_success accepted
    rw [constructed_of_resolved resolved] at listed
    cases listed
  | .constant literal, v, accepted, member, listed => by
    rw [Expr.constructed] at listed
    cases listed
  | .construct members, v, accepted, member, listed => by
    obtain ⟨values, membersOk, rfl⟩ := computed_construct_success accepted
    exact computed_of_constructedMembers members [] values membersOk member listed
  | .compare op left right, v, accepted, member, listed => by
    obtain ⟨first, second, leftOk, rightOk, rfl⟩ := computed_compare_success accepted
    rcases List.mem_append.mp listed with listed | listed
    · exact computed_of_constructed left first leftOk member listed
    · exact computed_of_constructed right second rightOk member listed
  | .logical op left right, v, accepted, member, listed => by
    obtain ⟨first, second, leftOk, rightOk, rfl⟩ := computed_logical_success accepted
    rcases List.mem_append.mp listed with listed | listed
    · exact computed_of_constructed left first leftOk member listed
    · exact computed_of_constructed right second rightOk member listed
  | .not inner, v, accepted, member, listed => by
    obtain ⟨body, innerOk, rfl⟩ := computed_not_success accepted
    exact computed_of_constructed inner body innerOk member listed
  | .parameter, v, accepted, _, _ => absurd accepted (computed_parameter_rejected v)
  | .call method target arguments, v, accepted, _, _ =>
    absurd accepted (computed_call_rejected method target arguments v)

/-- The same of constructed members themselves. -/
theorem computed_of_constructedMembers :
    ∀ (members : List (String × Expr)) (named : List String) (values : List (String × Computed)),
      scope.computedMembers mapping named members = .ok values →
      ∀ member ∈ Expr.constructedMembers members,
        ∃ inner, scope.computed mapping member.2 = .ok inner
  | [], named, values, accepted, member, listed => by cases listed
  | (name, e) :: rest, named, values, accepted, member, listed => by
    obtain ⟨-, v, others, first, restOk, rfl⟩ := computedMembers_cons_success accepted
    simp only [Expr.constructedMembers, List.mem_cons, List.mem_append] at listed
    rcases listed with rfl | listed | listed
    · exact ⟨v, first⟩
    · exact computed_of_constructed e v first member listed
    · exact computed_of_constructedMembers rest (name :: named) others restOk member listed

end

/-- Of an accepted expression only a member access can be missing. -/
theorem valueOf_eq_none_iff (document : Json) {e : Expr} {v : Computed}
    (accepted : scope.computed mapping e = .ok v) :
    scope.valueOf mapping document e = none ↔
      e.isAccess = true ∧ scope.read mapping document e = none := by
  cases e with
  | parameter => exact absurd accepted (computed_parameter_rejected v)
  | call method target arguments =>
    exact absurd accepted (computed_call_rejected method target arguments v)
  | member target name => simp [valueOf, Expr.isAccess]
  | constant literal =>
    obtain ⟨form, formed, -⟩ := computed_constant_success accepted
    simp [valueOf, Expr.isAccess, formed]
  | _ => simp [valueOf, Expr.isAccess]

/-- Constructed names stay as they are, and none occurs twice. -/
theorem names_of_computedMembers {members : List (String × Expr)} {named : List String}
    {values : List (String × Computed)}
    (accepted : scope.computedMembers mapping named members = .ok values) :
    values.map Prod.fst = members.map Prod.fst ∧ (members.map Prod.fst).Nodup ∧
      ∀ name ∈ members.map Prod.fst, name ∉ named := by
  induction members generalizing named values with
  | nil =>
    rw [computedMembers] at accepted
    cases accepted
    simp
  | cons pair rest ih =>
    obtain ⟨name, e⟩ := pair
    obtain ⟨fresh, v, others, -, restOk, rfl⟩ := computedMembers_cons_success accepted
    obtain ⟨same, distinct, later⟩ := ih restOk
    refine ⟨by simp [same], ?_, ?_⟩
    · have absent : name ∉ rest.map Prod.fst := by
        intro again
        exact later name again (by simp)
      exact List.nodup_cons.mpr ⟨absent, distinct⟩
    · intro other listed
      rcases List.mem_cons.mp listed with rfl | listed
      · exact fresh
      · exact fun earlier => later other listed (by simp [earlier])

end Scope

/-- The output after the constructed members of a body, each written at its path. -/
def Computed.place (document : Json) (output : Members) : List (String × Computed) → Members
  | [] => output
  | (name, member) :: rest =>
    match member.value document with
    | some found => place document (output.setPath name found) rest
    | none => place document output rest

namespace Project

/-- The form of a computed value is no flag. -/
theorem projectMember_form (document : Json) (output : Members) (path : String)
    (layout : Flattening) {v : Computed} (readable : v.Readable) :
    projectMember document output path (v.form layout) =
      .ok (match v.value document with
        | some found => output.setPath path found
        | none => output) := by
  have evaluated := (Computed.evaluates document layout v readable).form
  have noFlag : (∃ text, v.form layout = .str text) ∨ ∃ members, v.form layout = .obj members := by
    cases v with
    | field path => exact .inl ⟨_, rfl⟩
    | logical op left right => cases layout <;> exact .inr ⟨_, rfl⟩
    | _ => exact .inr ⟨_, rfl⟩
  rcases noFlag with ⟨text, shape⟩ | ⟨members, shape⟩
  · rw [shape] at evaluated ⊢
    simp only [projectMember, evaluated]
    rfl
  · rw [shape] at evaluated ⊢
    simp only [projectMember, evaluated]
    rfl

theorem projectMembers_memberForms (document : Json) (layout : Flattening)
    {members : List (String × Computed)} (readable : ∀ member ∈ members, member.2.Readable)
    (output : Members) (later : Members) :
    projectMembers document output (Computed.memberForms layout members ++ later) =
      projectMembers document (Computed.place document output members) later := by
  induction members generalizing output with
  | nil => rfl
  | cons pair rest ih =>
    obtain ⟨name, member⟩ := pair
    have restReadable : ∀ other ∈ rest, other.2.Readable :=
      fun other listed => readable other (by simp [listed])
    rw [Computed.memberForms, List.cons_append, projectMembers,
      projectMember_form document output name layout (readable (name, member) (by simp)),
      Computed.place]
    cases member.value document with
    | none => exact ih restReadable output
    | some found => exact ih restReadable (output.setPath name found)

/-- The body of a selection makes of every document what its members place, and the
identity is not included on its own. -/
theorem project_memberForms (document : Json) (layout : Flattening)
    {members : List (String × Computed)} (readable : ∀ member ∈ members, member.2.Readable) :
    project document (Context.withIdentity (Computed.memberForms layout members)) =
      .ok (.obj (Computed.place document [] members)) := by
  have placed := projectMembers_memberForms document layout readable []
  unfold Context.withIdentity
  by_cases named : Assoc.has (Computed.memberForms layout members) "_id" = true
  · have whole := placed []
    rw [List.append_nil] at whole
    simp only [named, if_true, project, implicitIdentity, whole]
    rfl
  · simp only [Bool.not_eq_true] at named
    have hidden : Assoc.has
        (Computed.memberForms layout members ++ [("_id", .num (.int 0))]) "_id" = true := by
      rw [Assoc.has_iff]
      simp [Assoc.keys]
    rw [named, if_neg Bool.false_ne_true, Assoc.insert_of_absent _ _ named]
    simp only [project, implicitIdentity, hidden, if_true, placed]
    rfl

end Project

/-- Members whose names are new and distinct segments are placed at the end. -/
theorem Computed.place_of_plain (document : Json) {members : List (String × Computed)}
    (undotted : ∀ name ∈ members.map Prod.fst, Dotted.Undotted name)
    (distinct : (members.map Prod.fst).Nodup) (output : Members)
    (fresh : ∀ name ∈ members.map Prod.fst, name ∉ Assoc.keys output) :
    place document output members = output ++ values document members := by
  induction members generalizing output with
  | nil => simp [place, values]
  | cons pair rest ih =>
    obtain ⟨name, member⟩ := pair
    simp only [List.map_cons, List.nodup_cons, List.forall_mem_cons] at undotted distinct fresh
    rw [place, values]
    cases member.value document with
    | none => exact ih undotted.2 distinct.2 output fresh.2
    | some found =>
      have absent : Assoc.has output name = false := by
        rw [← Bool.not_eq_true, Assoc.has_iff]
        exact fresh.1
      simp only [Members.setPath_of_undotted output found undotted.1,
        Assoc.insert_of_absent output found absent]
      rw [ih undotted.2 distinct.2]
      · simp
      · intro other listed again
        simp only [Assoc.keys, List.map_append, List.map_cons, List.map_nil, List.mem_append,
          List.mem_singleton] at again
        rcases again with earlier | rfl
        · exact fresh.2 other listed earlier
        · exact distinct.1 listed

namespace Scope

variable {mapping : FieldMapping} {scope : Scope}

/-- The members of a selection can be read back if no constructed name is an operator. -/
theorem readable_of_selected {projection : Expr} {values : List (String × Computed)}
    (chosen : scope.selected mapping projection = .ok values)
    (unmarked : ∀ member ∈ projection.constructed, Sigil.isMarked member.1 = false) :
    ∀ member ∈ values, member.2.Readable := by
  rcases selected_success chosen with ⟨target, name, field, rfl, -, rfl⟩ | ⟨members, rfl, membersOk⟩
  · simp [Computed.Readable]
  · have readable := readable_of_computedMembers members [] values membersOk unmarked
    exact Computed.forall_readable readable

/-- The members of a selection place the document that it describes. -/
theorem place_of_selected (document : Json) {projection : Expr} {values : List (String × Computed)}
    (chosen : scope.selected mapping projection = .ok values) (plain : projection.PlainNames) :
    Json.obj (Computed.place document [] values) = scope.described mapping document projection := by
  rcases selected_success chosen with
    ⟨target, name, field, rfl, resolved, rfl⟩ | ⟨members, rfl, membersOk⟩
  · simp only [described, resolved, Computed.place, Computed.value]
    cases document.lookup field.path with
    | none => rfl
    | some found => exact Members.setPath_empty field.path found
  · obtain ⟨same, distinct, -⟩ := names_of_computedMembers membersOk
    have undotted : ∀ name ∈ values.map Prod.fst, Dotted.Undotted name := by
      rw [same]
      intro name listed
      obtain ⟨member, built, rfl⟩ := List.mem_map.mp listed
      exact (plain member (Expr.mem_constructedMembers built)).1
    rw [Computed.place_of_plain document undotted (same ▸ distinct) [] (by simp [Assoc.keys]),
      values_of_computedMembers document members [] values membersOk]
    rfl

/-- Of the members that a selection constructs exactly the member accesses that find
nothing are missing. -/
theorem missing_iff_of_selected (document : Json) {projection : Expr}
    {values : List (String × Computed)} (chosen : scope.selected mapping projection = .ok values)
    {member : String × Expr} (listed : member ∈ projection.constructed) :
    scope.valueOf mapping document member.2 = none ↔
      member.2.isAccess = true ∧ scope.read mapping document member.2 = none := by
  rcases selected_success chosen with
    ⟨target, name, field, rfl, resolved, -⟩ | ⟨members, rfl, membersOk⟩
  · rw [constructed_of_resolved resolved] at listed
    cases listed
  · obtain ⟨v, accepted⟩ := computed_of_constructedMembers members [] values membersOk member listed
    exact valueOf_eq_none_iff document accepted

end Scope

/-- The body of an accepted selection makes of every document the one that it describes. -/
theorem Context.project_of_selectStage {context : Context} {projection : Expr} {body : Members}
    (accepted : context.selectStage projection = .ok ⟨"$project", .obj body⟩)
    (plain : projection.PlainNames) (document : Json) :
    Project.project document body =
      .ok (context.scope.described context.mapping document projection) := by
  obtain ⟨values, chosen, stage⟩ := Context.selectStage_success accepted
  cases stage
  have readable := Scope.readable_of_selected chosen fun member listed => (plain member listed).2
  rw [Project.project_memberForms document _ readable,
    Scope.place_of_selected document chosen plain]

/-- The `$project` stage of an accepted selection makes of every document the document
that the selection describes, of whose constructed members exactly the member accesses
that find nothing are left out. -/
theorem selectStage_projects (context : Context) (projection : Expr) (body : Members)
    (accepted : context.selectStage projection = .ok ⟨"$project", .obj body⟩)
    (plain : projection.PlainNames) (document : Json) :
    Project.project document body =
        .ok (context.scope.described context.mapping document projection) ∧
      ∀ member ∈ projection.constructed,
        context.scope.valueOf context.mapping document member.2 = none ↔
          member.2.isAccess = true ∧
            context.scope.read context.mapping document member.2 = none := by
  obtain ⟨values, chosen, -⟩ := Context.selectStage_success accepted
  constructor
  · exact Context.project_of_selectStage accepted plain document
  · intro member listed
    exact Scope.missing_iff_of_selected document chosen listed

/-- A card of a person: text that looks like a reference, a nested document, and the
question whether an adult lives elsewhere than in "$home". -/
def card : Expr :=
  .construct [
    ("Who", .field "Id"), ("Note", .constant (.string "$Age")), ("Active", .field "Active"),
    ("Place", .construct [("City", .field "Address.City"),
      ("Ref", .constant (.objectId "5f0000000000000000000001"))]),
    ("Away", .logical .and (.compare .gte (.field "Age") (.constant (.int 18)))
      (.not (.compare .eq (.field "Address.City") (.constant (.string "$home")))))]

/-- The body of the card. -/
def cardBody : Members :=
  [("Who", .str "$_id"), ("Note", .obj [("$literal", .str "$Age")]), ("Active", .str "$Active"),
    ("Place", .obj [("City", .str "$Address.place.city"),
      ("Ref", .obj [("$literal", .obj [("$oid", .str "5f0000000000000000000001")])])]),
    ("Away", .obj [("$and", .arr [.obj [("$gte", .arr [.str "$Age", .num (.int 18)])],
      .obj [("$not", .arr [.obj [("$eq",
        .arr [.str "$Address.place.city", .obj [("$literal", .str "$home")]])]])]])]),
    ("_id", .num (.int 0))]

theorem selectStage_projects_card :
    peopleMerged.selectStage card = .ok ⟨"$project", .obj cardBody⟩ ∧ card.PlainNames ∧
      Project.project commuter cardBody = .ok (.obj [("Who", .str "p1"), ("Note", .str "$Age"),
        ("Place", .obj [("City", .arr [.str "Bonn", .str "Ulm"]),
          ("Ref", .obj [("$oid", .str "5f0000000000000000000001")])]),
        ("Away", .bool true)]) ∧
      Project.project commuter cardBody =
        .ok (peopleMerged.scope.described people commuter card) := by
  have accepted : peopleMerged.selectStage card = .ok ⟨"$project", .obj cardBody⟩ := rfl
  have plain : card.PlainNames := by decide
  exact ⟨accepted, plain, rfl, (selectStage_projects _ _ _ accepted plain commuter).1⟩

end DocQuery
