import DocQuery.Proofs.Acceptance
import DocQuery.Proofs.Condition.Run
import DocQuery.Proofs.Document.Comparison
import DocQuery.Proofs.Expr.Parts

/-!
# The meaning of predicates

`Scope.Means` says when a predicate is true of a document, by recursion on the
predicate and without its lowered form: connectives are the connectives of logic,
and a comparison relates what its member finds to the document form of its
constant, in the order in which the operands are written. `filterStage_answers`
shows that the `$match` stage of an accepted predicate has this answer on every
document, in every layout, and never fails, as long as no resolved path would be
read as an operator.
-/
namespace DocQuery

/-- The outcome is an answer, and the answer is the truth of the statement. -/
def Answers (outcome : Except ExecutionError Bool) (statement : Prop) : Prop :=
  ∃ answer, outcome = .ok answer ∧ (answer = true ↔ statement)

/-- A value equals another: two numbers by their order, all else as whole values. -/
def Json.SameAs (value other : Json) : Prop :=
  match value, other with
  | .num _, .num _ => value.compareLike other = some .eq
  | _, _ => value.equal other = true

/-- What a member finds equals a constant: it is missing and the constant is null,
it is equal to the constant, or it is an array with an item that is. -/
def EqualTo (found : Option Json) (form : Json) : Prop :=
  (found = none ∧ form = .null) ∨
  (∃ value, found = some value ∧ value.SameAs form) ∨
  (∃ items, found = some (.arr items) ∧ ∃ item ∈ items, item.SameAs form)

/-- Both operands are there and comparable, and their order is accepted. -/
def Ordered (accept : Ordering → Bool) (left right : Option Json) : Prop :=
  ∃ a b order, left = some a ∧ right = some b ∧ a.compareLike b = some order ∧
    accept order = true

/-- What a comparison says of its operands, given when they count as equal. -/
def CompareOp.Relates (op : CompareOp) (equal : Prop) (left right : Option Json) : Prop :=
  match op with
  | .eq => equal
  | .ne => ¬ equal
  | .lt => Ordered Ordering.isLT left right
  | .lte => Ordered Ordering.isLE left right
  | .gt => Ordered Ordering.isGT left right
  | .gte => Ordered Ordering.isGE left right

/-- Two statements joined by a connective. -/
def LogicalOp.Joins (op : LogicalOp) (first second : Prop) : Prop :=
  match op with
  | .and => first ∧ second
  | .or => first ∨ second

/-- A predicate is true of a document. -/
def Scope.Means (mapping : FieldMapping) (scope : Scope) (document : Json) : Expr → Prop
  | .compare op left (.constant value) =>
    let found := scope.read mapping document left
    ∃ form, value.document? = some form ∧ op.Relates (EqualTo found form) found (some form)
  | .compare op (.constant value) right =>
    let found := scope.read mapping document right
    ∃ form, value.document? = some form ∧ op.Relates (EqualTo found form) (some form) found
  | .logical op left right =>
    op.Joins (Means mapping scope document left) (Means mapping scope document right)
  | .not inner => ¬ Means mapping scope document inner
  | .member target name =>
    EqualTo (scope.read mapping document (.member target name)) (.bool true)
  | .call method (.constant (.array items)) [member] =>
    method = "contains" ∧ ∃ item ∈ items, ∃ form, item.document? = some form ∧
      EqualTo (scope.read mapping document member) form
  | _ => False

namespace Answers

theorem combine {op : LogicalOp} {first second : Except ExecutionError Bool} {left right : Prop}
    (leftAnswers : Answers first left) (rightAnswers : Answers second right) :
    Answers (op.combine first second) (op.Joins left right) := by
  obtain ⟨a, rfl, leftIff⟩ := leftAnswers
  obtain ⟨b, rfl, rightIff⟩ := rightAnswers
  cases op with
  | and =>
    cases a with
    | true => exact ⟨b, rfl, by simp [LogicalOp.Joins, ← leftIff, rightIff]⟩
    | false => exact ⟨false, rfl, by simp [LogicalOp.Joins, ← leftIff]⟩
  | or =>
    cases a with
    | true => exact ⟨true, rfl, by simp [LogicalOp.Joins, ← leftIff]⟩
    | false => exact ⟨b, rfl, by simp [LogicalOp.Joins, ← leftIff, rightIff]⟩

theorem not {outcome : Except ExecutionError Bool} {statement : Prop}
    (answers : Answers outcome statement) : Answers (outcome.map (!·)) (¬ statement) := by
  obtain ⟨answer, rfl, iff⟩ := answers
  exact ⟨!answer, rfl, by simp [← iff]⟩

end Answers

theorem Json.sameValue_iff (value other : Json) :
    value.sameValue other = true ↔ value.SameAs other := by
  cases value <;> cases other
  case num.num a b => simp [Json.sameValue, Json.SameAs, Json.compareLike]
  all_goals rfl

namespace Match

theorem equals_iff (found : Option Json) (form : Json) :
    equals found form = true ↔ EqualTo found form := by
  cases found with
  | none => cases form <;> simp [equals, EqualTo, Json.isNull]
  | some value =>
    cases value with
    | arr items => simp [equals, EqualTo, Json.sameValue_iff]
    | _ => simp [equals, EqualTo, Json.sameValue_iff]

theorem compares_iff (found : Option Json) (form : Json) (accept : Ordering → Bool) :
    compares found form accept = true ↔ Ordered accept found (some form) := by
  unfold compares
  cases found with
  | none => simp [Ordered]
  | some value => cases comparable : value.compareLike form <;> simp [Ordered, comparable]

/-- Every comparison has an answer: what it says of the value found. -/
theorem operatorHolds_answers (found : Option Json) (op : CompareOp) (form : Json) :
    Answers (operatorHolds found op.operator form)
      (op.Relates (EqualTo found form) found (some form)) := by
  have order (accept : Ordering → Bool) := compares_iff found form accept
  cases op with
  | eq => exact ⟨_, rfl, equals_iff found form⟩
  | ne => exact ⟨_, rfl, by simp [CompareOp.Relates, ← equals_iff]⟩
  | lt => exact ⟨_, rfl, by simp [order, CompareOp.Relates, Ordered, Ordering.isLT_iff_eq_lt]⟩
  | lte => exact ⟨_, rfl, by simp [order, CompareOp.Relates, Ordered, Ordering.isLE_iff_ne_gt]⟩
  | gt => exact ⟨_, rfl, by simp [order, CompareOp.Relates, Ordered, Ordering.isGT_iff_eq_gt]⟩
  | gte => exact ⟨_, rfl, by simp [order, CompareOp.Relates, Ordered, Ordering.isGE_iff_ne_lt]⟩

/-- The membership of the field among constants has an answer. -/
theorem operatorHolds_in_answers (found : Option Json) (forms : List Json) :
    Answers (operatorHolds found "$in" (.arr forms)) (∃ form ∈ forms, EqualTo found form) := by
  refine ⟨forms.any (equals found), rfl, ?_⟩
  simp [equals_iff]

/-- A key that is no operator names no connective. -/
theorem ofName?_of_unmarked {path : String} (plain : Sigil.isMarked path = false) :
    Connective.ofName? path = none := by
  have other (name : String) (marked : Sigil.isMarked name = true) : path ≠ name := by
    rintro rfl
    rw [marked] at plain
    cases plain
  simp only [Connective.ofName?, if_neg (other "$and" (by decide)),
    if_neg (other "$or" (by decide)), if_neg (other "$nor" (by decide))]

/-- A key that is no operator is the path of a field. -/
theorem entryHolds_field (document : Json) {path : String} (condition : Json)
    (plain : Sigil.isMarked path = false) :
    entryHolds document path condition = fieldHolds (document.lookup path) condition := by
  unfold entryHolds
  rw [ofName?_of_unmarked plain]
  simp only [plain, Bool.false_eq_true, if_false]

/-- A condition of one operator asks that operator. -/
theorem fieldHolds_operator (found : Option Json) {operator : String} (operand : Json)
    (marked : Sigil.isMarked operator = true) (untagged : operator ∉ Json.extendedTags) :
    fieldHolds found (.obj [(operator, operand)]) = operatorHolds found operator operand := by
  have condition : operators? (.obj [(operator, operand)]) = some [(operator, operand)] := by
    cases operand <;> simp [operators?, marked, Json.isExtended, Json.extended?, untagged]
  simp only [fieldHolds, condition, operatorsHold]
  rcases operatorHolds found operator operand with error | answer
  · rfl
  · cases answer <;> rfl

end Match

namespace CompareOp

/-- A comparison says of its operands what the swapped one says in the other order. -/
theorem relates_swap (op : CompareOp) (equal : Prop) (left right : Option Json) :
    op.swap.Relates equal left right ↔ op.Relates equal right left := by
  have flip (accept reversed : Ordering → Bool)
      (same : ∀ order : Ordering, accept order = reversed order.swap) :
      Ordered accept left right ↔ Ordered reversed right left := by
    constructor
    · rintro ⟨a, b, order, rfl, rfl, compared, accepted⟩
      refine ⟨b, a, order.swap, rfl, rfl, ?_, same order ▸ accepted⟩
      rw [← Json.compareLike_swap, compared, Option.map_some]
    · rintro ⟨b, a, order, rfl, rfl, compared, accepted⟩
      refine ⟨a, b, order.swap, rfl, rfl, ?_, ?_⟩
      · rw [← Json.compareLike_swap, compared, Option.map_some]
      · rw [same, Ordering.swap_swap, accepted]
  cases op with
  | eq | ne => exact Iff.rfl
  | lt => exact flip Ordering.isGT Ordering.isLT fun order => by cases order <;> rfl
  | lte => exact flip Ordering.isGE Ordering.isLE fun order => by cases order <;> rfl
  | gt => exact flip Ordering.isLT Ordering.isGT fun order => by cases order <;> rfl
  | gte => exact flip Ordering.isLE Ordering.isGE fun order => by cases order <;> rfl

theorem operator_not_tag (op : CompareOp) : op.operator ∉ Json.extendedTags := by
  cases op <;> decide

end CompareOp

namespace Condition

theorem run_compare_answers (document : Json) {path : String} (op : CompareOp) (form : Json)
    (plain : Sigil.isMarked path = false) :
    Answers ((Condition.compare path op form).run document)
      (op.Relates (EqualTo (document.lookup path) form) (document.lookup path) (some form)) := by
  rw [run, Match.holds_singleton, Match.entryHolds_field document _ plain,
    Match.fieldHolds_operator _ form op.marked_operator op.operator_not_tag]
  exact Match.operatorHolds_answers _ op form

theorem run_oneOf_answers (document : Json) {path : String} (forms : List Json)
    (plain : Sigil.isMarked path = false) :
    Answers ((Condition.oneOf path forms).run document)
      (∃ form ∈ forms, EqualTo (document.lookup path) form) := by
  rw [run, Match.holds_singleton, Match.entryHolds_field document _ plain,
    Match.fieldHolds_operator _ _ (by decide) (by decide)]
  exact Match.operatorHolds_in_answers _ forms

end Condition

namespace Scope

variable {mapping : FieldMapping} {scope : Scope}

/-- An accepted comparison answers what it says, whichever side the member is on. -/
theorem comparison_answers (document : Json) {op : CompareOp} {member : Expr} {value : Literal}
    {c : Condition} (plain : scope.PlainPaths mapping member)
    (accepted : scope.comparison mapping op member value = .ok c) :
    let found := scope.read mapping document member
    Answers (c.run document)
      (∃ form, value.document? = some form ∧
        op.Relates (EqualTo found form) found (some form)) := by
  obtain ⟨field, form, resolved, formed, rfl⟩ := comparison_success accepted
  obtain ⟨target, name, rfl⟩ := resolveExpr_success resolved
  have unmarked : Sigil.isMarked field.path = false := plain _ (by simp [Expr.accesses]) _ resolved
  have leaf := Condition.run_compare_answers document op form unmarked
  simpa only [read_of_resolved resolved, formed, Option.some.injEq, exists_eq_left'] using leaf

theorem compare_answers (document : Json) {op : CompareOp} {left right : Expr} {c : Condition}
    (accepted : scope.condition mapping (.compare op left right) = .ok c)
    (plain : scope.PlainPaths mapping (.compare op left right)) :
    Answers (c.run document) (scope.Means mapping document (.compare op left right)) := by
  have plainLeft : scope.PlainPaths mapping left :=
    fun access member => plain access (by simp [Expr.accesses, member])
  have plainRight : scope.PlainPaths mapping right :=
    fun access member => plain access (by simp [Expr.accesses, member])
  rcases condition_compare_success accepted with ⟨value, rfl, compared⟩ | ⟨value, rfl, compared⟩
  · rw [Means]
    exact comparison_answers document plainLeft compared
  · have swapped := comparison_answers document plainRight compared
    obtain ⟨field, form, resolved, -, -⟩ := comparison_success compared
    obtain ⟨target, name, rfl⟩ := resolveExpr_success resolved
    simpa only [Means, CompareOp.relates_swap] using swapped

/-- The forms in a condition on a list of constants are those of its items. -/
theorem call_answers (document : Json) {method : String} {target : Expr} {arguments : List Expr}
    {c : Condition} (accepted : scope.condition mapping (.call method target arguments) = .ok c)
    (plain : scope.PlainPaths mapping (.call method target arguments)) :
    Answers (c.run document) (scope.Means mapping document (.call method target arguments)) := by
  obtain ⟨items, member, field, forms, rfl, rfl, rfl, resolved, formed, rfl⟩ :=
    condition_call_success accepted
  obtain ⟨inner, name, rfl⟩ := resolveExpr_success resolved
  have unmarked := plain _ (by simp [Expr.accesses, Expr.accessesOfItems]) _ resolved
  have same (form : Json) : form ∈ forms ↔ ∃ item ∈ items, item.document? = some form := by
    have member : some form ∈ items.map Literal.document? ↔ some form ∈ forms.map some := by
      rw [formed]
    simpa using member.symm
  obtain ⟨answer, ran, iff⟩ := Condition.run_oneOf_answers document forms unmarked
  refine ⟨answer, ran, iff.trans ?_⟩
  rw [Means, read_of_resolved resolved]
  constructor
  · rintro ⟨form, member, equal⟩
    obtain ⟨item, listed, formed⟩ := (same form).mp member
    exact ⟨rfl, item, listed, form, formed, equal⟩
  · rintro ⟨-, item, listed, form, formed, equal⟩
    exact ⟨form, (same form).mpr ⟨item, listed, formed⟩, equal⟩

/-- An accepted predicate runs to its meaning. The induction is on the predicate;
acceptance gives the condition of each part. -/
theorem run_answers (document : Json) : ∀ (e : Expr) (c : Condition),
    scope.condition mapping e = .ok c → scope.PlainPaths mapping e →
      Answers (c.run document) (scope.Means mapping document e)
  | .compare op left right, c, accepted, plain => compare_answers document accepted plain
  | .logical op left right, c, accepted, plain => by
    obtain ⟨first, second, leftOk, rightOk, rfl⟩ := condition_logical_success accepted
    have leftAnswers := run_answers document left first leftOk
      fun access member => plain access (by simp [Expr.accesses, member])
    have rightAnswers := run_answers document right second rightOk
      fun access member => plain access (by simp [Expr.accesses, member])
    exact leftAnswers.combine rightAnswers
  | .not inner, c, accepted, plain => by
    rcases condition_not_success accepted with
      ⟨target, name, field, rfl, resolved, rfl⟩ | ⟨body, innerOk, rfl⟩
    · have unmarked := plain _ (by simp [Expr.accesses]) _ resolved
      have leaf := Condition.run_compare_answers document .ne (.bool true) unmarked
      simpa only [Means, CompareOp.Relates, read_of_resolved resolved] using leaf
    · exact (run_answers document inner body innerOk plain).not
  | .member target name, c, accepted, plain => by
    obtain ⟨field, resolved, rfl⟩ := condition_member_success accepted
    have unmarked := plain _ (by simp [Expr.accesses]) _ resolved
    have leaf := Condition.run_compare_answers document .eq (.bool true) unmarked
    simpa only [Means, CompareOp.Relates, read_of_resolved resolved] using leaf
  | .call method target arguments, c, accepted, plain => call_answers document accepted plain
  | .parameter, c, accepted, _ => by cases accepted
  | .constant _, c, accepted, _ => by cases accepted
  | .construct _, c, accepted, _ => by cases accepted

end Scope

/-- The `$match` stage of an accepted predicate answers its meaning on every document. -/
theorem filterStage_answers (context : Context) (predicate : Expr) (body : Members)
    (accepted : context.filterStage predicate = .ok ⟨"$match", .obj body⟩)
    (plain : context.scope.PlainPaths context.mapping predicate) (document : Json) :
    Answers (Match.holds document body)
      (context.scope.Means context.mapping document predicate) := by
  obtain ⟨c, resolved, stage⟩ := Context.filterStage_success accepted
  cases stage
  rw [Condition.holds_document]
  exact Scope.run_answers document predicate c resolved plain

/-- People with a stored name for the identity and a dotted one for the city. -/
def people : FieldMapping :=
  MappingRegistry.resolve ⟨[
    ("User", [("Id", { elementName := some "_id" }), ("Age", {}), ("Active", {}),
      ("Address", { nestedType := some "Address" })]),
    ("Address", [("City", { elementName := some "place.city" })])]⟩

/-- People are asked for, and conjunctions are merged. -/
def peopleMerged : Context :=
  ⟨people, .entity "User", { flattening := .merge }⟩

/-- `18 <= Age`, not active, and a city of two, one of them unknown. -/
def adultsSomewhere : Expr :=
  .logical .and
    (.logical .and (.compare .lte (.constant (.int 18)) (.field "Age")) (.not (.field "Active")))
    (.call "contains" (.constant (.array [.string "Ulm", .null])) [.field "Address.City"])

/-- The merged body of the predicate. -/
def adultsBody : Members :=
  [("Age", .obj [("$gte", .num (.int 18))]), ("Active", .obj [("$ne", .bool true)]),
    ("Address.place.city", .obj [("$in", .arr [.str "Ulm", .null])])]

/-- A person of two cities, of whom it is not known whether they are active. -/
def commuter : Json :=
  .obj [("_id", .str "p1"), ("Age", .num (.int 30)),
    ("Address", .obj [("place", .obj [("city", .arr [.str "Bonn", .str "Ulm"])])])]

theorem filterStage_answers_adults :
    peopleMerged.filterStage adultsSomewhere = .ok ⟨"$match", .obj adultsBody⟩ ∧
      peopleMerged.scope.PlainPaths people adultsSomewhere ∧
      Match.holds commuter adultsBody = .ok true ∧
      Answers (Match.holds commuter adultsBody)
        (peopleMerged.scope.Means people commuter adultsSomewhere) := by
  have accepted : peopleMerged.filterStage adultsSomewhere = .ok ⟨"$match", .obj adultsBody⟩ := rfl
  have plain : peopleMerged.scope.PlainPaths people adultsSomewhere := by
    intro access member field resolved
    have listed : access ∈ [Expr.field "Age", .field "Active", .field "Address.City"] := member
    simp only [List.mem_cons, List.not_mem_nil, or_false] at listed
    rcases listed with rfl | rfl | rfl
    · cases (show Except.ok ⟨"Age", .scalar⟩ = Except.ok field from resolved)
      rfl
    · cases (show Except.ok ⟨"Active", .scalar⟩ = Except.ok field from resolved)
      rfl
    · cases (show Except.ok ⟨"Address.place.city", .scalar⟩ = Except.ok field from resolved)
      rfl
  exact ⟨accepted, plain, rfl, filterStage_answers _ _ _ accepted plain commuter⟩

end DocQuery
