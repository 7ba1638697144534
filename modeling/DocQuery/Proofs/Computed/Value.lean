import DocQuery.Collection.Project
import DocQuery.Compile.Computed
import DocQuery.Proofs.Acceptance
import DocQuery.Proofs.Expr.Parts

/-!
# Computed values of documents

`Computed.value` is what a computed value is in a document, said on the computed
value itself. Its form in a `$project` body is plain JSON that is told apart by
shape alone: references and operators by a dollar sign, extended values by their
tag. `Computed.evaluates` shows that no part is taken for another one: in every
layout the form evaluates, without failure, to the value, provided that no
constructed name begins with a dollar sign and constants are document forms.
-/
namespace DocQuery

/-- A comparison of two values, each of which may be missing, as aggregations make it. -/
def CompareOp.onValues (op : CompareOp) (left right : Option Json) : Bool :=
  match op with
  | .eq => Json.compareForSort left right == .eq && Project.sameArgument left right
  | .ne => !Project.sameArgument left right
  | .lt => Json.compareForSort left right == .lt
  | .lte => Json.compareForSort left right != .gt
  | .gt => Json.compareForSort left right == .gt
  | .gte => Json.compareForSort left right != .lt

/-- A connective of two truth values. -/
def LogicalOp.onTruth (op : LogicalOp) (left right : Bool) : Bool :=
  match op with
  | .and => left && right
  | .or => left || right

/-- A connective of the truth of any number of values. -/
def LogicalOp.overValues (op : LogicalOp) (values : List (Option Json)) : Bool :=
  match op with
  | .and => values.all Project.argumentIsTruthy
  | .or => values.any Project.argumentIsTruthy

theorem LogicalOp.overValues_append (op : LogicalOp) (first second : List (Option Json)) :
    op.overValues (first ++ second) = op.onTruth (op.overValues first) (op.overValues second) := by
  cases op with
  | and => exact List.all_append
  | or => exact List.any_append

/-- The tags of extended values begin with a dollar sign like operators. -/
theorem Json.marked_of_tag {name : String} (tagged : name ∈ Json.extendedTags) :
    Sigil.isMarked name = true := by
  simp only [Json.extendedTags, List.mem_cons, List.not_mem_nil, or_false] at tagged
  rcases tagged with rfl | rfl | rfl <;> decide

/-- The document form of a constant. -/
def Json.IsForm (value : Json) : Prop :=
  ∃ literal : Literal, literal.document? = some value

namespace Computed

mutual

/-- What a computed value is in a document; a field may be missing. -/
def value (document : Json) : Computed → Option Json
  | .field path => document.lookup path
  | .constant form => some form
  | .construct members => some (.obj (values document members))
  | .compare op left right =>
    some (.bool (op.onValues (value document left) (value document right)))
  | .logical op left right =>
    some (.bool (op.onTruth (Project.argumentIsTruthy (value document left))
      (Project.argumentIsTruthy (value document right))))
  | .not inner => some (.bool (!Project.argumentIsTruthy (value document inner)))

/-- The constructed members that are not missing, in order. -/
def values (document : Json) : List (String × Computed) → Members
  | [] => []
  | (name, member) :: rest =>
    match value document member with
    | some found => (name, found) :: values document rest
    | none => values document rest

end

mutual

/-- Constants are document forms, and no constructed name begins with a dollar sign. -/
def Readable : Computed → Prop
  | .field _ => True
  | .constant form => form.IsForm
  | .construct members => ReadableMembers members
  | .compare _ left right => left.Readable ∧ right.Readable
  | .logical _ left right => left.Readable ∧ right.Readable
  | .not inner => inner.Readable

/-- The same of every constructed member. -/
def ReadableMembers : List (String × Computed) → Prop
  | [] => True
  | (name, member) :: rest =>
    Sigil.isMarked name = false ∧ member.Readable ∧ ReadableMembers rest

end

end Computed

namespace Project

theorem applyOperator_compare (op : CompareOp) (left right : Option Json) :
    applyOperator op.operator [left, right] = .ok (op.onValues left right) := by
  cases op <;> rfl

theorem applyOperator_logical (op : LogicalOp) (arguments : List (Option Json)) :
    applyOperator op.operator arguments = .ok (op.overValues arguments) := by
  cases op <;> rfl

/-- A document of one member is an extended value, a constant or an operator by the name of the
member, or else a nested document. -/
theorem evaluate_single (document : Json) (name : String) (operand : Json) :
    evaluate document (.obj [(name, operand)]) =
      if (Json.obj [(name, operand)]).isExtended then .ok (some (.obj [(name, operand)]))
      else if Sigil.isMarked name then
        if name = "$literal" then .ok (some operand)
        else
          match operand with
          | .arr arguments => do
            let values ← evaluateArguments document arguments
            return some (.bool (← applyOperator name values))
          | _ => .error (malformed (.notAnArray name))
      else (evaluateMembers document [(name, operand)]).map fun found => some (.obj found) := by
  have members : evaluateMembers document [(name, operand)] = do
      match ← evaluate document operand with
      | some value => return [(name, value)]
      | none => return [] := rfl
  rw [members]
  conv => lhs; unfold evaluate
  rcases evaluate document operand with error | _ | value <;> rfl

/-- An operator over an array applies to the values of the array's items. -/
theorem evaluate_operator (document : Json) {name : String} (arguments : List Json)
    (marked : Sigil.isMarked name = true) (noLiteral : name ≠ "$literal") :
    evaluate document (.obj [(name, .arr arguments)]) = do
      let values ← evaluateArguments document arguments
      return some (.bool (← applyOperator name values)) := by
  rw [evaluate_single]
  simp [Json.isExtended, Json.extended?, marked, noLiteral]

theorem evaluate_literal (document operand : Json) :
    evaluate document (.obj [("$literal", operand)]) = .ok (some operand) := by
  have marked : Sigil.isMarked "$literal" = true := by decide
  have plain : (Json.obj [("$literal", operand)]).isExtended = false := by
    cases operand <;> simp [Json.isExtended, Json.extended?, Json.extendedTags]
  rw [evaluate_single]
  simp only [plain, marked, if_true, Bool.false_eq_true, if_false]

/-- A nested document whose names are plain evaluates member by member. -/
theorem evaluate_obj (document : Json) (members : Members)
    (plain : ∀ member ∈ members, Sigil.isMarked member.1 = false) :
    evaluate document (.obj members) =
      (evaluateMembers document members).map fun found => some (.obj found) := by
  rcases members with _ | ⟨⟨name, form⟩, _ | ⟨second, rest⟩⟩
  · rw [evaluate]
    · simp [evaluateMembers, Except.map, bind, Except.bind, pure, Except.pure]
    · simp
  · have unmarked : Sigil.isMarked name = false := plain (name, form) (by simp)
    have untagged : name ∉ Json.extendedTags := by
      intro tagged
      rw [Json.marked_of_tag tagged] at unmarked
      cases unmarked
    have single : (Json.obj [(name, form)]).isExtended = false := by
      cases form <;> simp [Json.isExtended, Json.extended?, untagged]
    rw [evaluate_single, single, unmarked]
    rfl
  · rw [evaluate]
    · rcases evaluateMembers document ((name, form) :: second :: rest) with error | found <;> rfl
    · simp

theorem evaluateArguments_cons (document argument : Json) (rest : List Json) :
    evaluateArguments document (argument :: rest) = do
      let value ← evaluate document argument
      return value :: (← evaluateArguments document rest) :=
  rfl

theorem evaluateArguments_append (document : Json) {first second : List Json}
    {left right : List (Option Json)} (firstOk : evaluateArguments document first = .ok left)
    (secondOk : evaluateArguments document second = .ok right) :
    evaluateArguments document (first ++ second) = .ok (left ++ right) := by
  induction first generalizing left with
  | nil =>
    cases firstOk
    exact secondOk
  | cons argument rest ih =>
    obtain ⟨value, evaluated, firstOk⟩ := bind_success firstOk
    obtain ⟨others, restOk, firstOk⟩ := bind_success firstOk
    cases firstOk
    rw [List.cons_append, evaluateArguments_cons, evaluated, ih restOk]
    rfl

theorem evaluateArguments_pair (document : Json) {first second : Json} {left right : Option Json}
    (firstOk : evaluate document first = .ok left)
    (secondOk : evaluate document second = .ok right) :
    evaluateArguments document [first, second] = .ok [left, right] := by
  rw [evaluateArguments_cons, evaluateArguments_cons, firstOk, secondOk]
  rfl

/-- The document form of a constant stands for itself, unless it is text that begins
with a dollar sign. -/
theorem evaluate_form_of_constant (document : Json) {form : Json} (constant : form.IsForm)
    (plain : ∀ text, form = .str text → Sigil.isMarked text = false) :
    evaluate document form = .ok (some form) := by
  obtain ⟨literal, formed⟩ := constant
  have wrapped (tag text : String) (tagged : tag ∈ Json.extendedTags) :
      evaluate document (Literal.wrapped tag text) = .ok (some (Literal.wrapped tag text)) := by
    have extended : (Json.obj [(tag, .str text)]).isExtended = true := by
      simp [Json.isExtended, Json.extended?, tagged]
    exact (evaluate_single document tag (.str text)).trans (if_pos extended)
  cases literal with
  | string text =>
    cases formed
    have unmarked : Sigil.strip? text = none := by simpa [Sigil.isMarked] using plain text rfl
    rw [evaluate, unmarked]
  | date instant =>
    cases formed
    exact wrapped _ _ (by decide)
  | uuid id =>
    cases formed
    exact wrapped _ _ (by decide)
  | objectId hex =>
    cases formed
    exact wrapped _ _ (by decide)
  | float number =>
    rw [Literal.document?] at formed
    split at formed
    · cases formed
      rw [evaluate] <;> simp
    · cases formed
  | array items =>
    rw [Literal.document?] at formed
    obtain ⟨forms, -, rfl⟩ := Option.map_eq_some_iff.mp formed
    rw [evaluate] <;> simp
  | null | bool | int | uint =>
    cases formed
    rw [evaluate] <;> simp

end Project

namespace Computed

/-- The form under an operator evaluates as the form does. -/
theorem evaluate_operandForm (document : Json) (layout : Flattening) {v : Computed}
    (readable : v.Readable)
    (evaluated : Project.evaluate document (v.form layout) = .ok (v.value document)) :
    Project.evaluate document (operandForm v (v.form layout)) = .ok (v.value document) := by
  cases v with
  | constant form =>
    cases form with
    | str text =>
      unfold operandForm
      by_cases marked : Sigil.isMarked text = true
      · simpa only [marked, if_true] using evaluated
      · simp only [marked]
        refine Project.evaluate_form_of_constant document readable fun other same => ?_
        cases same
        simpa using marked
    | _ => exact Project.evaluate_form_of_constant document readable fun _ same => by cases same
  | _ => exact evaluated

/-- A value that adds one form to chains adds its own truth. -/
theorem chain_of_single {document : Json} {form : Json} {found : Option Json}
    (evaluated : Project.evaluate document form = .ok found) (op : LogicalOp) :
    ∃ values, Project.evaluateArguments document [form] = .ok values ∧
      op.overValues values = Project.argumentIsTruthy found := by
  refine ⟨[found], ?_, ?_⟩
  · rw [Project.evaluateArguments_cons, evaluated]
    rfl
  · cases op <;> simp [LogicalOp.overValues]

/-- A connective over forms is the connective of the truth of their values. -/
theorem evaluate_connective {document : Json} {op : LogicalOp} {left right : Computed}
    {forms : List Json} {found : List (Option Json)}
    (evaluated : Project.evaluateArguments document forms = .ok found)
    (truth : op.overValues found = op.onTruth (Project.argumentIsTruthy (left.value document))
      (Project.argumentIsTruthy (right.value document))) :
    Project.evaluate document (.obj [(op.operator, .arr forms)]) =
      .ok ((Computed.logical op left right).value document) := by
  have noLiteral : op.operator ≠ "$literal" := by cases op <;> decide
  rw [Project.evaluate_operator document _ op.marked_operator noLiteral, evaluated]
  simp only [bind, Except.bind, Project.applyOperator_logical, truth]
  rfl

theorem forall_readable : ∀ {members : List (String × Computed)},
    ReadableMembers members → ∀ member ∈ members, member.2.Readable
  | [], _, member, listed => by cases listed
  | (name, first) :: rest, readable, member, listed => by
    rcases List.mem_cons.mp listed with rfl | listed
    · exact readable.2.1
    · exact forall_readable readable.2.2 member listed

theorem memberForms_plain (layout : Flattening) {members : List (String × Computed)}
    (readable : ReadableMembers members) :
    ∀ entry ∈ memberForms layout members, Sigil.isMarked entry.1 = false := by
  induction members with
  | nil => simp [memberForms]
  | cons pair rest ih =>
    obtain ⟨name, member⟩ := pair
    rw [memberForms]
    intro entry listed
    rcases List.mem_cons.mp listed with rfl | listed
    · exact readable.1
    · exact ih readable.2.2 entry listed

/-- In a layout the form of a value evaluates to the value in a document, and so do together the
operands that it adds to a chain of either connective. -/
structure Evaluates (document : Json) (layout : Flattening) (v : Computed) : Prop where
  form : Project.evaluate document (v.form layout) = .ok (v.value document)
  operands : ∀ op : LogicalOp, ∃ values,
    Project.evaluateArguments document (v.operandForms layout op) = .ok values ∧
      op.overValues values = Project.argumentIsTruthy (v.value document)

section

variable {document : Json} {layout : Flattening}

theorem evaluates_field (path : String) : (field path).Evaluates document layout := by
  have evaluated : Project.evaluate document (.str (Sigil.mark path)) =
      .ok (document.lookup path) := by
    rw [Project.evaluate, Sigil.strip?_mark]
  exact ⟨evaluated, chain_of_single evaluated⟩

theorem evaluates_constant (form : Json) : (constant form).Evaluates document layout := by
  have evaluated := Project.evaluate_literal document form
  exact ⟨evaluated, chain_of_single evaluated⟩

theorem evaluates_construct {members : List (String × Computed)}
    (readable : ReadableMembers members)
    (each : Project.evaluateMembers document (memberForms layout members) =
      .ok (values document members)) : (construct members).Evaluates document layout := by
  have evaluated : Project.evaluate document (.obj (memberForms layout members)) =
      .ok (some (.obj (values document members))) := by
    rw [Project.evaluate_obj document _ (memberForms_plain layout readable), each]
    rfl
  exact ⟨evaluated, chain_of_single evaluated⟩

theorem evaluates_compare (op : CompareOp) {left right : Computed} (leftReadable : left.Readable)
    (rightReadable : right.Readable) (first : left.Evaluates document layout)
    (second : right.Evaluates document layout) :
    (compare op left right).Evaluates document layout := by
  have leftOk := evaluate_operandForm document layout leftReadable first.form
  have rightOk := evaluate_operandForm document layout rightReadable second.form
  have evaluated : Project.evaluate document ((compare op left right).form layout) =
      .ok ((compare op left right).value document) := by
    have noLiteral : op.operator ≠ "$literal" := by cases op <;> decide
    rw [form, Project.evaluate_operator document _ op.marked_operator noLiteral,
      Project.evaluateArguments_pair document leftOk rightOk]
    exact congrArg (Except.map (some ∘ Json.bool)) (Project.applyOperator_compare op _ _)
  exact ⟨evaluated, chain_of_single evaluated⟩

/-- Two forms side by side, as the nested layout has them. -/
theorem evaluate_pair (op : LogicalOp) {left right : Computed}
    (first : left.Evaluates document layout) (second : right.Evaluates document layout) :
    Project.evaluate document (.obj [(op.operator, .arr [left.form layout, right.form layout])]) =
      .ok ((logical op left right).value document) := by
  refine evaluate_connective
    (Project.evaluateArguments_pair document first.form second.form) ?_
  cases op <;> simp [LogicalOp.overValues, LogicalOp.onTruth]

/-- The operands of two values in one chain of a connective. -/
theorem evaluate_joined (op : LogicalOp) {left right : Computed}
    (first : left.Evaluates document layout) (second : right.Evaluates document layout) :
    ∃ values, Project.evaluateArguments document
        (left.operandForms layout op ++ right.operandForms layout op) = .ok values ∧
      op.overValues values = op.onTruth (Project.argumentIsTruthy (left.value document))
        (Project.argumentIsTruthy (right.value document)) := by
  obtain ⟨before, firstOk, firstTruth⟩ := first.operands op
  obtain ⟨behind, secondOk, secondTruth⟩ := second.operands op
  refine ⟨before ++ behind, Project.evaluateArguments_append document firstOk secondOk, ?_⟩
  rw [LogicalOp.overValues_append, firstTruth, secondTruth]

theorem evaluates_logical (op : LogicalOp) {left right : Computed}
    (first : left.Evaluates document layout) (second : right.Evaluates document layout) :
    (logical op left right).Evaluates document layout := by
  obtain ⟨values, joined, truth⟩ := evaluate_joined op first second
  have flat : Project.evaluate document
      (.obj [(op.operator, .arr (left.operandForms layout op ++ right.operandForms layout op))]) =
        .ok ((logical op left right).value document) := evaluate_connective joined truth
  cases layout with
  | nested =>
    have pair := evaluate_pair op first second
    exact ⟨pair, chain_of_single pair⟩
  | flatten | merge =>
    refine ⟨flat, fun other => ?_⟩
    simp only [operandForms]
    split
    next same =>
      subst same
      exact ⟨values, joined, truth⟩
    · exact chain_of_single flat other

theorem evaluates_not {inner : Computed} (body : inner.Evaluates document layout) :
    inner.not.Evaluates document layout := by
  have evaluated : Project.evaluate document (inner.not.form layout) =
      .ok (inner.not.value document) := by
    rw [form, Project.evaluate_operator document _ (by decide) (by decide),
      Project.evaluateArguments_cons, body.form]
    rfl
  exact ⟨evaluated, chain_of_single evaluated⟩

end

mutual

/-- Readable values evaluate in every layout. -/
theorem evaluates (document : Json) (layout : Flattening) :
    ∀ v : Computed, v.Readable → v.Evaluates document layout
  | .field path, _ => evaluates_field path
  | .constant form, _ => evaluates_constant form
  | .construct members, readable =>
    evaluates_construct readable (evaluateMembers_memberForms document layout members readable)
  | .compare op left right, readable =>
    evaluates_compare op readable.1 readable.2 (evaluates document layout left readable.1)
      (evaluates document layout right readable.2)
  | .logical op left right, readable =>
    evaluates_logical op (evaluates document layout left readable.1)
      (evaluates document layout right readable.2)
  | .not inner, readable => evaluates_not (evaluates document layout inner readable)

/-- The forms of constructed members evaluate to the members that are not missing. -/
theorem evaluateMembers_memberForms (document : Json) (layout : Flattening) :
    ∀ members : List (String × Computed), ReadableMembers members →
      Project.evaluateMembers document (memberForms layout members) = .ok (values document members)
  | [], _ => by rw [memberForms, Project.evaluateMembers, values]
  | (name, member) :: rest, readable => by
    have first := (evaluates document layout member readable.2.1).form
    have others := evaluateMembers_memberForms document layout rest readable.2.2
    rw [memberForms, Project.evaluateMembers, values, first]
    cases member.value document with
    | none => exact others
    | some found =>
      rw [others]
      rfl

end

end Computed
end DocQuery
