import DocQuery.Log.Entry
import DocQuery.Proofs.Collection.StableSort
import DocQuery.Proofs.Document.ReadBack
import Mathlib.Data.List.Nodup

/-!
# Log lines

A line is one line whatever its strings are, since they are written without control
characters. It reads back as an object that begins with the event and the severity and goes
on with the other names in ascending order, and each name has the value that was last given
to it. The order in which different names are given makes no difference
(`render_canonical`).
-/
namespace DocQuery

namespace Assoc

variable {β : Type}

/-- The value that pairs last give a name. -/
def lastGiven (pairs : List (String × β)) (name : String) : Option β :=
  (pairs.filter (·.1 = name)).getLast?.map Prod.snd

theorem lastGiven_append (pairs others : List (String × β)) (name : String) :
    lastGiven (pairs ++ others) name = (lastGiven others name).or (lastGiven pairs name) := by
  unfold lastGiven
  rw [List.filter_append, List.getLast?_append]
  cases (others.filter (·.1 = name)).getLast? <;> rfl

theorem lastGiven_cons (pair : String × β) (rest : List (String × β)) (name : String) :
    lastGiven (pair :: rest) name =
      (lastGiven rest name).or (if pair.1 = name then some pair.2 else none) := by
  have one : lastGiven [pair] name = if pair.1 = name then some pair.2 else none := by
    by_cases here : pair.1 = name <;> simp [lastGiven, here]
  rw [← one, ← lastGiven_append, List.singleton_append]

/-- Setting entries leaves a name with the value that they last give it. -/
theorem get?_insertAll (entries : Assoc β) (pairs : List (String × β)) (name : String) :
    (entries.insertAll pairs).get? name = (lastGiven pairs name).or (entries.get? name) := by
  induction pairs generalizing entries with
  | nil => rfl
  | cons pair rest ih =>
    rw [insertAll_cons, ih, lastGiven_cons, Option.or_assoc]
    congr 1
    by_cases here : pair.1 = name
    · rw [if_pos here, ← here, get?_insert_self]
      rfl
    · rw [if_neg here, get?_insert_of_ne entries pair.2 here]
      rfl

theorem lastGiven_of_distinct {entries : Assoc β} (distinct : entries.Distinct) (name : String) :
    lastGiven entries name = entries.get? name := by
  have all : insertAll [] entries = entries := insertAll_of_distinct distinct
  have read := get?_insertAll [] entries name
  rw [all] at read
  exact Option.or_none.symm.trans read.symm

/-- Entries in the order of their names put the new names in ascending order after the old ones. -/
theorem keys_insertAll_ascending {pairs : List (String × β)}
    (inOrder : (keys pairs).Pairwise (· ≤ ·)) {entries : Assoc β} {front added : List String}
    (keys_eq : entries.keys = front ++ added) (ascending : added.Pairwise (· < ·))
    (before : ∀ a ∈ added, ∀ b ∈ keys pairs, a ≤ b) :
    ∃ names : List String, names.Pairwise (· < ·) ∧ (entries.insertAll pairs).keys = front ++ names := by
  induction pairs generalizing entries added with
  | nil => exact ⟨added, ascending, keys_eq⟩
  | cons pair rest ih =>
    have names : keys (pair :: rest) = pair.1 :: keys rest := rfl
    rw [names, List.pairwise_cons] at inOrder
    simp only [names, List.forall_mem_cons] at before
    have later (a : String) (member : a ∈ added) := (before a member).2
    have inserted := keys_insert entries pair.1 pair.2
    split at inserted
    · exact ih inOrder.2 (inserted.trans keys_eq) ascending later
    · next new =>
      rw [keys_eq, List.append_assoc] at inserted
      refine ih inOrder.2 inserted ?_ ?_
      · refine List.pairwise_append.mpr ⟨ascending, List.pairwise_singleton _ _, ?_⟩
        intro a member b same
        rw [List.mem_singleton.mp same]
        have different : a ≠ pair.1 := by
          rintro rfl
          exact new (keys_eq ▸ List.mem_append_right front member)
        exact Std.lt_of_le_of_ne (before a member).1 different
      · intro a member
        rcases List.mem_append.mp member with old | same
        · exact later a old
        · rw [List.mem_singleton.mp same]
          exact inOrder.1

end Assoc

namespace Log.Entry

/-- The event and the severity of an entry under their names. -/
def heading (entry : Entry) : Assoc String :=
  [("event", entry.event), ("severity", entry.severity.name)]

/-- The value that an entry last gives a name, its event and its severity being given first. -/
def given (entry : Entry) (name : String) : Option String :=
  Assoc.lastGiven (entry.heading ++ entry.fields) name

/-- The fields of an entry in the order of their names. -/
def sortedFields (entry : Entry) : List (String × String) :=
  entry.fields.mergeSort fun a b => decide (a.1 ≤ b.1)

/-- The strings of an entry under their names. -/
def values (entry : Entry) : Assoc String :=
  entry.heading.insertAll entry.sortedFields

theorem document_eq_strings (entry : Entry) : entry.document = .obj (Json.strings entry.values) := by
  have inserted (values : Assoc String) (field : String × String) :
      (Json.strings values).insert field.1 (.str field.2) =
        Json.strings (values.insert field.1 field.2) :=
    Json.insert_strings values field.1 field.2
  have all : entry.sortedFields.foldl
      (fun (members : Members) field => members.insert field.1 (.str field.2))
      (Json.strings entry.heading) = Json.strings entry.values :=
    List.foldl_hom Json.strings inserted
  exact congrArg Json.obj all

/-! ## Fields in the order of their names -/

theorem compare_fst_ne_gt (a b : String × String) :
    compareOn Prod.fst a b ≠ .gt ↔ a.1 ≤ b.1 := by
  have greater : compare b.1 a.1 = .lt ↔ b.1 < a.1 := compareOfLessAndEq_eq_lt
  rw [← Std.OrientedCmp.gt_iff_lt] at greater
  exact (not_congr greater).trans String.not_lt

theorem stablySorted_sortedFields (entry : Entry) :
    StablySorted (compareOn Prod.fst) entry.fields entry.sortedFields := by
  have sameOrder : (fun a b : String × String => decide (a.1 ≤ b.1)) =
      fun a b => compareOn Prod.fst a b != .gt := by
    funext a b
    rw [Bool.eq_iff_iff, decide_eq_true_iff, bne_iff_ne, compare_fst_ne_gt]
  rw [sortedFields, sameOrder]
  exact StablySorted.mergeSort entry.fields

/-- Fields of one name keep their order when the names are put in order. -/
theorem filter_sortedFields (entry : Entry) (name : String) :
    entry.sortedFields.filter (·.1 = name) = entry.fields.filter (·.1 = name) := by
  have tied : (compareOn Prod.fst (name, "") · == .eq) =
      fun field : String × String => decide (field.1 = name) := by
    funext field
    have same : compareOn Prod.fst (name, "") field = .eq ↔ name = field.1 :=
      Std.LawfulEqOrd.compare_eq_iff_eq
    rw [Bool.eq_iff_iff, beq_iff_eq, decide_eq_true_iff, same, eq_comm]
  have stable := entry.stablySorted_sortedFields.stable (name, "")
  rwa [tied] at stable

theorem pairwise_sortedFields (entry : Entry) :
    (Assoc.keys entry.sortedFields).Pairwise (· ≤ ·) := by
  rw [Assoc.keys, List.pairwise_map]
  exact entry.stablySorted_sortedFields.sorted.imp (compare_fst_ne_gt _ _).mp

/-- Fields with distinct names have one order. -/
theorem sortedFields_of_perm {entry other : Entry} (distinct : Assoc.Distinct entry.fields)
    (perm : other.fields.Perm entry.fields) : other.sortedFields = entry.sortedFields := by
  have back := entry.stablySorted_sortedFields.perm
  have there := other.stablySorted_sortedFields.perm.trans perm
  refine List.Perm.eq_of_pairwise ?_ (List.pairwise_map.mp other.pairwise_sortedFields)
    (List.pairwise_map.mp entry.pairwise_sortedFields) (there.trans back.symm)
  intro a b first second le ge
  exact List.inj_on_of_nodup_map distinct (there.mem_iff.mp first) (back.mem_iff.mp second)
    (String.le_antisymm le ge)

/-! ## The object of a line -/

theorem distinct_heading (entry : Entry) : entry.heading.Distinct := by
  change ["event", "severity"].Nodup
  decide

theorem distinct_values (entry : Entry) : entry.values.Distinct :=
  Assoc.distinct_insertAll entry.distinct_heading entry.sortedFields

theorem mem_keys_values (entry : Entry) (name : String) :
    name ∈ entry.values.keys ↔ name = "event" ∨ name = "severity" ∨ name ∈ Assoc.keys entry.fields := by
  have sameNames : name ∈ Assoc.keys entry.sortedFields ↔ name ∈ Assoc.keys entry.fields :=
    (entry.stablySorted_sortedFields.perm.map Prod.fst).mem_iff
  have headed : name ∈ entry.heading.keys ↔ name = "event" ∨ name = "severity" := by
    simp [heading, Assoc.keys]
  rw [values, Assoc.mem_keys_insertAll, sameNames, headed, or_assoc]

theorem keys_values (entry : Entry) :
    ∃ names : List String, entry.values.keys = "event" :: "severity" :: names ∧
      names.Pairwise (· < ·) ∧
      ∀ name, name ∈ names ↔ name ∈ Assoc.keys entry.fields ∧ name ≠ "event" ∧ name ≠ "severity" := by
  have start : entry.heading.keys = ["event", "severity"] ++ [] := rfl
  obtain ⟨names, ascending, keys_eq⟩ :=
    Assoc.keys_insertAll_ascending entry.pairwise_sortedFields start List.Pairwise.nil nofun
  replace keys_eq : entry.values.keys = "event" :: "severity" :: names := keys_eq
  refine ⟨names, keys_eq, ascending, ?_⟩
  intro name
  have member := entry.mem_keys_values name
  have distinct := entry.distinct_values
  rw [Assoc.Distinct, keys_eq, List.nodup_cons, List.nodup_cons] at distinct
  rw [keys_eq, List.mem_cons, List.mem_cons] at member
  obtain ⟨eventOnce, severityOnce, -⟩ := distinct
  constructor
  · intro listed
    have notEvent : name ≠ "event" := fun same => eventOnce (same ▸ List.mem_cons_of_mem _ listed)
    have notSeverity : name ≠ "severity" := fun same => severityOnce (same ▸ listed)
    have given := member.mp (.inr (.inr listed))
    exact ⟨by simpa [notEvent, notSeverity] using given, notEvent, notSeverity⟩
  · rintro ⟨given, notEvent, notSeverity⟩
    simpa [notEvent, notSeverity, given] using member

theorem get?_values (entry : Entry) (name : String) : entry.values.get? name = entry.given name := by
  have sameLast : Assoc.lastGiven entry.sortedFields name = Assoc.lastGiven entry.fields name := by
    rw [Assoc.lastGiven, filter_sortedFields, ← Assoc.lastGiven]
  rw [values, Assoc.get?_insertAll, sameLast, given, Assoc.lastGiven_append,
    Assoc.lastGiven_of_distinct entry.distinct_heading]

/-- A log line is one line: the only end of a line is its last character. It reads back as an
object whose members are the event, the severity and the other names of the fields in
ascending order, each with the value that was last given to it; and fields with distinct names
give the same line in every order. -/
theorem render_canonical (entry : Entry) :
    (∃ body : List Char, '\n' ∉ body ∧ entry.render.toList = body ++ ['\n']) ∧
    (∃ (members : Members) (names : List String),
      Json.parse? entry.render = some (.obj members) ∧
      members.keys = "event" :: "severity" :: names ∧ names.Pairwise (· < ·) ∧
      (∀ name, name ∈ names ↔
        name ∈ Assoc.keys entry.fields ∧ name ≠ "event" ∧ name ≠ "severity") ∧
      ∀ name, members.get? name = (entry.given name).map Json.str) ∧
    (Assoc.Distinct entry.fields → ∀ fields : List (String × String), fields.Perm entry.fields →
      Entry.render { entry with fields } = entry.render) := by
  refine ⟨?_, ?_, ?_⟩
  · refine ⟨entry.document.chars, ?_, ?_⟩
    · rw [document_eq_strings]
      intro member
      exact absurd (Json.space_le_of_mem_chars member) (by decide)
    · rw [render, text, Json.render, String.toList_append, String.toList_ofList]
      rfl
  · obtain ⟨names, keys_eq, ascending, member⟩ := entry.keys_values
    refine ⟨Json.strings entry.values, names, ?_, ?_, ascending, member, ?_⟩
    · have blank : ∀ c ∈ "\n".toList, Token.isBlank c = true := by
        intro c newline
        rw [List.mem_singleton.mp newline]
        rfl
      rw [render, text, document_eq_strings]
      exact Json.parse?_render_strings entry.distinct_values blank
    · rw [Json.keys_strings, keys_eq]
    · intro name
      rw [Json.get?_strings, get?_values]
  · intro distinct fields perm
    have sorted : sortedFields { entry with fields } = entry.sortedFields :=
      sortedFields_of_perm distinct perm
    have same : values { entry with fields } = entry.values := by
      rw [values, sorted]
      rfl
    rw [render, text, document_eq_strings, same, ← document_eq_strings]
    rfl

/-- Three fields in two orders. -/
theorem render_canonical_zebra :
    let entry : Entry := ⟨.info, "TEST", [("zebra", "1"), ("apple", "a\n\"b\""), ("mango", "3")]⟩
    Assoc.Distinct entry.fields ∧
      Entry.render { entry with
        fields := [("apple", "a\n\"b\""), ("mango", "3"), ("zebra", "1")] } = entry.render := by
  intro entry
  have distinct : Assoc.Distinct entry.fields := by
    change ["zebra", "apple", "mango"].Nodup
    decide
  have perm : [("apple", "a\n\"b\""), ("mango", "3"), ("zebra", "1")].Perm entry.fields := by
    decide
  exact ⟨distinct, (render_canonical entry).2.2 distinct _ perm⟩

end Log.Entry
end DocQuery
