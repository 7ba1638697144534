import DocQuery.Collection.Match
import DocQuery.Compile.Condition

/-!
# Running conditions

`Condition.run` is the answer of a condition on a document, said on the condition
itself: a leaf is one entry of a `$match` body, a connective asks its left operand
first, and a failure of the right operand is seen only if the left one does not
decide. `holds_document` shows that every layout of connectives has this answer,
with the same failure, whatever the paths of the leaves are called.
-/
namespace DocQuery

namespace LogicalOp

/-- Two answers joined by a connective: the second counts if the first does not decide. -/
def combine (op : LogicalOp) (first second : Except ExecutionError Bool) :
    Except ExecutionError Bool :=
  match op, first with
  | .and, .ok true => second
  | .or, .ok false => second
  | _, answer => answer

/-- The answer of a connective without operands. -/
def neutral : LogicalOp → Bool
  | .and => true
  | .or => false

/-- The answer of a connective over laid out operands. -/
def answer (op : LogicalOp) (document : Json) (operands : List Json) :
    Except ExecutionError Bool :=
  match op with
  | .and => Match.allHold document operands
  | .or => Match.anyHolds document operands

theorem combine_neutral_left (op : LogicalOp) (second : Except ExecutionError Bool) :
    op.combine (.ok op.neutral) second = second := by
  cases op <;> rfl

theorem combine_neutral_right (op : LogicalOp) (first : Except ExecutionError Bool) :
    op.combine first (.ok op.neutral) = first := by
  rcases first with error | answer
  · cases op <;> rfl
  · cases op <;> cases answer <;> rfl

theorem combine_assoc (op : LogicalOp) (first second third : Except ExecutionError Bool) :
    op.combine (op.combine first second) third = op.combine first (op.combine second third) := by
  rcases first with error | answer
  · cases op <;> rfl
  · cases op <;> cases answer <;> rfl

theorem answer_nil (op : LogicalOp) (document : Json) :
    op.answer document [] = .ok op.neutral := by
  cases op <;> rfl

theorem answer_cons (op : LogicalOp) (document : Json) (body : Members) (rest : List Json) :
    op.answer document (.obj body :: rest) =
      op.combine (Match.holds document body) (op.answer document rest) := by
  cases op with
  | and =>
    simp only [answer, Match.allHold]
    rcases Match.holds document body with error | answer
    · rfl
    · cases answer <;> rfl
  | or =>
    simp only [answer, Match.anyHolds]
    rcases Match.holds document body with error | answer
    · rfl
    · cases answer <;> rfl

/-- The answer over more operands joins the answers over both parts. -/
theorem answer_append (op : LogicalOp) (document : Json) (first second : List Members) :
    op.answer document ((first ++ second).map .obj) =
      op.combine (op.answer document (first.map .obj)) (op.answer document (second.map .obj)) := by
  induction first with
  | nil => rw [List.nil_append, List.map_nil, answer_nil, combine_neutral_left]
  | cons body rest ih =>
    rw [List.cons_append, List.map_cons, List.map_cons, answer_cons, answer_cons, ih,
      combine_assoc]

theorem answer_singleton (op : LogicalOp) (document : Json) (body : Members) :
    op.answer document [.obj body] = Match.holds document body := by
  rw [answer_cons, answer_nil, combine_neutral_right]

theorem answer_pair (op : LogicalOp) (document : Json) (first second : Members) :
    op.answer document [.obj first, .obj second] =
      op.combine (Match.holds document first) (Match.holds document second) := by
  rw [answer_cons, answer_singleton]

end LogicalOp

namespace Match

theorem holds_nil (document : Json) : holds document [] = .ok true := rfl

theorem holds_cons (document : Json) (key : String) (condition : Json) (rest : Members) :
    holds document ((key, condition) :: rest) =
      LogicalOp.and.combine (entryHolds document key condition) (holds document rest) := by
  rw [holds]
  rcases entryHolds document key condition with error | answer
  · rfl
  · cases answer <;> rfl

theorem holds_singleton (document : Json) (key : String) (condition : Json) :
    holds document [(key, condition)] = entryHolds document key condition := by
  rw [holds_cons, holds_nil]
  exact LogicalOp.combine_neutral_right .and _

theorem holds_append (document : Json) (first second : Members) :
    holds document (first ++ second) =
      LogicalOp.and.combine (holds document first) (holds document second) := by
  induction first with
  | nil => rw [List.nil_append, holds_nil]; rfl
  | cons entry rest ih =>
    obtain ⟨key, condition⟩ := entry
    rw [List.cons_append, holds_cons, holds_cons, ih, LogicalOp.combine_assoc]

/-- One body with all the entries holds as the conjunction of the bodies does. -/
theorem holds_flatten (document : Json) (bodies : List Members) :
    holds document bodies.flatten = LogicalOp.and.answer document (bodies.map .obj) := by
  induction bodies with
  | nil => rw [List.flatten_nil, List.map_nil, holds_nil, LogicalOp.answer_nil]; rfl
  | cons body rest ih =>
    rw [List.flatten_cons, holds_append, List.map_cons, LogicalOp.answer_cons, ih]

theorem allDocuments_map_obj (bodies : List Members) : allDocuments (bodies.map .obj) = true := by
  simp [allDocuments, Json.members?]

/-- A body of one connective over documents has the answer of the connective. -/
theorem holds_connective (op : LogicalOp) (document : Json) (bodies : List Members) :
    holds document [(op.operator, .arr (bodies.map .obj))] =
      op.answer document (bodies.map .obj) := by
  rw [holds_singleton]
  cases op with
  | and =>
    have name : Connective.ofName? LogicalOp.and.operator = some .and := by decide
    simp [entryHolds, name, allDocuments_map_obj, LogicalOp.answer]
  | or =>
    have name : Connective.ofName? LogicalOp.or.operator = some .or := by decide
    simp [entryHolds, name, allDocuments_map_obj, LogicalOp.answer]

/-- A negated body has the opposite answer, or its failure. -/
theorem holds_negation (document : Json) (body : Members) :
    holds document [("$nor", .arr [.obj body])] = (holds document body).map (!·) := by
  have name : Connective.ofName? "$nor" = some .nor := by decide
  have single := LogicalOp.answer_singleton .or document body
  simp only [LogicalOp.answer] at single
  rw [holds_singleton]
  simp [entryHolds, name, allDocuments, Json.members?, single]

end Match

/-- Merging members adds them at the end, unless one is an operator or its name is taken. -/
theorem merge_members_eq_some_iff (merged members result : Members) :
    members.foldlM (fun merged (name, value) =>
      if Sigil.isMarked name || Assoc.has merged name then none
      else some (Assoc.insert merged name value)) merged = some result ↔
      result = merged ++ members ∧
        (∀ entry ∈ members, Sigil.isMarked entry.1 = false ∧ entry.1 ∉ Assoc.keys merged) ∧
        Assoc.Distinct members := by
  induction members generalizing merged with
  | nil => simpa [Assoc.Distinct, Assoc.keys] using eq_comm
  | cons entry rest ih =>
    obtain ⟨name, value⟩ := entry
    rw [List.foldlM_cons]
    cases taken : Sigil.isMarked name || Assoc.has merged name with
    | true =>
      refine iff_of_false (by simp [taken]) ?_
      rintro ⟨-, all, -⟩
      obtain ⟨unmarked, absent⟩ := all (name, value) (by simp)
      rw [← Assoc.has_iff] at absent
      simp [unmarked, absent] at taken
    | false =>
      obtain ⟨unmarked, absent⟩ := Bool.or_eq_false_iff.mp taken
      simp only [taken, Bool.false_eq_true, if_false]
      change List.foldlM _ (Assoc.insert merged name value) rest = _ ↔ _
      have fresh : name ∉ Assoc.keys merged := by
        rw [← Assoc.has_iff, absent]
        simp
      have last : Assoc.keys [(name, value)] = [name] := rfl
      rw [ih, Assoc.insert_of_absent merged value absent, Assoc.keys_append, Assoc.distinct_cons,
        last, List.append_assoc, List.singleton_append]
      -- The rest has to avoid the name at the end as well, and so is distinct from it.
      simp only [List.mem_append, List.forall_mem_cons, unmarked, fresh, List.mem_singleton,
        not_or, not_false_eq_true, and_self, true_and]
      grind

/-- Documents merge to the list of all their members, exactly if none of these is an operator
and no name repeats. -/
theorem mergeDisjoint?_eq_some_iff (merged : Members) (documents : List Members)
    (result : Members) :
    mergeDisjoint? merged documents = some result ↔
      result = merged ++ documents.flatten ∧
        (∀ entry ∈ documents.flatten,
          Sigil.isMarked entry.1 = false ∧ entry.1 ∉ Assoc.keys merged) ∧
        Assoc.Distinct documents.flatten := by
  rw [← merge_members_eq_some_iff]
  induction documents generalizing merged with
  | nil => simp [mergeDisjoint?]
  | cons document rest ih =>
    rw [List.flatten_cons, List.foldlM_append, mergeDisjoint?]
    cases document.foldlM (fun merged (name, value) =>
      if Sigil.isMarked name || Assoc.has merged name then none
      else some (Assoc.insert merged name value)) merged with
    | none => simp
    | some next => exact ih next

/-- Documents that merge give the list of all their members. -/
theorem mergeDisjoint?_success {documents : List Members} {merged : Members}
    (success : mergeDisjoint? [] documents = some merged) : merged = documents.flatten :=
  ((mergeDisjoint?_eq_some_iff [] documents merged).mp success).1

namespace Condition

/-- The answer of a condition on a document. -/
def run (document : Json) : Condition → Except ExecutionError Bool
  | .compare path op value => Match.holds document [(path, .obj [(op.operator, value)])]
  | .oneOf path values => Match.holds document [(path, .obj [("$in", .arr values)])]
  | .logical op left right => op.combine (run document left) (run document right)
  | .not inner => (run document inner).map (!·)

/-- A connective has the same answer as an array and as one merged document. -/
theorem holds_connective (layout : Flattening) (op : LogicalOp) (document : Json)
    (bodies : List Members) :
    Match.holds document (connective layout op bodies) = op.answer document (bodies.map .obj) := by
  have asArray := Match.holds_connective op document bodies
  unfold connective
  split
  · cases merge : mergeDisjoint? [] bodies with
    | none => simpa using asArray
    | some merged =>
      have all := mergeDisjoint?_success merge
      subst all
      simpa using Match.holds_flatten document bodies
  · exact asArray

/-- In a layout a condition holds of a document as it runs, and so do together the operands that it
adds to a chain of either connective. -/
structure HoldsAsRun (layout : Flattening) (document : Json) (c : Condition) : Prop where
  holds : Match.holds document (c.document layout) = c.run document
  operands : ∀ op : LogicalOp,
    op.answer document ((c.operands layout op).map .obj) = c.run document

section

variable {layout : Flattening} {document : Json}

/-- A condition that adds itself to chains. -/
theorem HoldsAsRun.of_single {c : Condition}
    (single : ∀ op, c.operands layout op = [c.document layout])
    (holds : Match.holds document (c.document layout) = c.run document) :
    c.HoldsAsRun layout document where
  holds := holds
  operands op := by
    rw [single, List.map_cons, List.map_nil, LogicalOp.answer_singleton, holds]

theorem holdsAsRun_logical (op : LogicalOp) {left right : Condition}
    (first : left.HoldsAsRun layout document) (second : right.HoldsAsRun layout document) :
    (logical op left right).HoldsAsRun layout document := by
  -- The whole chain of the same connective, as two of the layouts have it.
  have chain : op.answer document
      ((left.operands layout op ++ right.operands layout op).map .obj) =
        op.combine (left.run document) (right.run document) := by
    rw [LogicalOp.answer_append, first.operands, second.operands]
  cases layout with
  | nested =>
    refine .of_single (fun _ => rfl) ?_
    rw [Condition.document, holds_connective, List.map_cons, List.map_cons, List.map_nil,
      LogicalOp.answer_pair, first.holds, second.holds, run]
  | flatten | merge =>
    refine ⟨?_, fun other => ?_⟩
    · simp only [Condition.document, run, holds_connective, chain]
    · simp only [operands, run]
      split
      next same =>
        subst same
        exact chain
      · simp only [List.map_cons, List.map_nil, LogicalOp.answer_singleton, holds_connective,
          chain]

end

/-- Conditions hold as they run in every layout. -/
theorem holdsAsRun (layout : Flattening) (document : Json) (c : Condition) :
    c.HoldsAsRun layout document := by
  induction c with
  | compare path op value => exact .of_single (fun _ => rfl) rfl
  | oneOf path values => exact .of_single (fun _ => rfl) rfl
  | logical op left right first second => exact holdsAsRun_logical op first second
  | not inner body =>
    refine .of_single (fun _ => rfl) ?_
    rw [Condition.document, Match.holds_negation, body.holds, run]

/-- The layout of connectives never changes the answer of a condition. -/
theorem holds_document (layout : Flattening) (document : Json) (c : Condition) :
    Match.holds document (c.document layout) = c.run document :=
  (holdsAsRun layout document c).holds

end Condition
end DocQuery
