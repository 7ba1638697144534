import DocQuery.Collection.Store
import DocQuery.Proofs.Compile.Stages

/-!
# Paging

Skipping and taking, in any order and number, leave one contiguous window of the collection.
`Window` is such a window with its bounds; a skip moves its first place and a take the place
behind it, neither past the other bound. The stages of a chain of skips and takes leave the
window that the counts say, in unbounded arithmetic (`paging_window`), and there are stages
exactly if every count fits a signed word and is not negative, however it was given.
-/
namespace DocQuery

/-! ## Counts -/

namespace GivenInteger

/-- The integer, whatever it is held in. -/
def value : GivenInteger → Int
  | .int32 n => n.toInt
  | .int64 n => n.toInt
  | .uint32 n => n.toNat
  | .uint64 n | .size n => n.toNat

/-- The integer counts documents: it is not negative and at most the last signed word. -/
def IsCount (n : GivenInteger) : Prop :=
  0 ≤ n.value ∧ n.value ≤ 9223372036854775807

instance (n : GivenInteger) : Decidable n.IsCount :=
  inferInstanceAs (Decidable (_ ∧ _))

/-- What is said of an integer that is no count: it is shown if it is negative, and else it is
too large. -/
inductive Faults (n : GivenInteger) : CountFault → Prop where
  | negative (below : n.value < 0) : Faults n (.notACount (.ofInteger n))
  | large (count : UInt64) (same : n.value = count.toNat) (above : 9223372036854775807 < n.value) :
      Faults n (.tooLarge count)

end GivenInteger

/-- A small word is the same number with a sign. -/
theorem toInt_toInt64_of_small {word : UInt64} (small : word.toNat < 9223372036854775808) :
    word.toInt64.toInt = word.toNat := by
  have read : word.toInt64 = Int64.ofNat word.toNat := by
    rw [← UInt64.toInt64_ofNat', UInt64.ofNat_toNat]
  rw [read]
  exact Int64.toInt_ofNat_of_lt small

/-- The constant of an integer is a signed word, or else an unsigned one that fits no signed
word; the integer is not changed. -/
theorem Literal.ofInteger_cases (n : GivenInteger) :
    (∃ word : Int64, ofInteger n = .int word ∧ word.toInt = n.value) ∨
      ∃ word : UInt64, ofInteger n = .uint word ∧ n.value = word.toNat ∧
        9223372036854775807 < n.value := by
  have unsigned (word : UInt64) :
      (∃ signed : Int64, ofUnsigned word = .int signed ∧ signed.toInt = word.toNat) ∨
        ofUnsigned word = .uint word ∧ 9223372036854775807 < (word.toNat : Int) := by
    unfold ofUnsigned
    split
    next fits =>
      have small : word.toNat < 9223372036854775808 := Int.ofNat_lt.mp fits.2
      exact .inl ⟨word.toInt64, rfl, toInt_toInt64_of_small small⟩
    next wide =>
      refine .inr ⟨rfl, ?_⟩
      unfold FitsSigned at wide
      omega
  cases n with
  | int32 n => exact .inl ⟨n.toInt64, rfl, Int32.toInt_toInt64 n⟩
  | int64 n => exact .inl ⟨n, rfl, rfl⟩
  | uint32 n =>
    have small : n.toUInt64.toNat < 9223372036854775808 := Nat.lt_trans n.toNat_lt (by decide)
    exact .inl ⟨n.toUInt64.toInt64, rfl, toInt_toInt64_of_small small⟩
  | uint64 n | size n =>
    rcases unsigned n with ⟨word, made, same⟩ | ⟨made, above⟩
    · exact .inl ⟨word, made, same⟩
    · exact .inr ⟨n, made, rfl, above⟩

namespace Context

variable {n : GivenInteger}

theorem count_ofInteger (kind : OperationKind) (isCount : n.IsCount) :
    count kind (.constant (.ofInteger n)) = .ok n.value.toNat := by
  rcases Literal.ofInteger_cases n with ⟨word, made, same⟩ | ⟨word, -, -, above⟩
  · simp only [made, count, Literal.count?, same, if_pos isCount.1]
  · exact absurd isCount.2 (by omega)

theorem count_refused (kind : OperationKind) (noCount : ¬ n.IsCount) :
    ∃ fault, n.Faults fault ∧
      count kind (.constant (.ofInteger n)) = .error (.invalidCount kind fault) := by
  rcases Literal.ofInteger_cases n with ⟨word, made, same⟩ | ⟨word, made, same, above⟩
  · have below : n.value < 0 := by
      have fits := Int64.toInt_lt word
      unfold GivenInteger.IsCount at noCount
      omega
    have negative : ¬ 0 ≤ word.toInt := by omega
    refine ⟨_, .negative below, ?_⟩
    simp only [made, count, Literal.count?, if_neg negative]
  · exact ⟨_, .large word same above, by simp only [made, count]⟩

end Context

/-! ## Windows -/

/-- A contiguous part of a list of some length, by its first place and the place behind it. -/
structure Window (length : Nat) where
  first : Nat
  behind : Nat
  first_le_behind : first ≤ behind
  behind_le_length : behind ≤ length
  deriving DecidableEq, Repr

namespace Window

variable {length : Nat}

/-- All of a list. -/
def whole (length : Nat) : Window length :=
  ⟨0, length, Nat.zero_le length, Nat.le_refl length⟩

/-- The window without its first places. -/
def skip (window : Window length) (count : Nat) : Window length where
  first := min (window.first + count) window.behind
  behind := window.behind
  first_le_behind := Nat.min_le_right _ _
  behind_le_length := window.behind_le_length

/-- The first places of the window. -/
def take (window : Window length) (count : Nat) : Window length where
  first := window.first
  behind := min window.behind (window.first + count)
  first_le_behind := Nat.le_min.mpr ⟨window.first_le_behind, Nat.le_add_right _ _⟩
  behind_le_length := Nat.le_trans (Nat.min_le_left _ _) window.behind_le_length

/-- The documents in a window of a collection. -/
def slice {documents : List Json} (window : Window documents.length) : List Json :=
  documents.extract window.first window.behind

variable {documents : List Json} (window : Window documents.length)

theorem slice_whole : (whole documents.length).slice = documents := by
  simp [slice, whole]

theorem slice_skip (count : Nat) : (window.skip count).slice = window.slice.drop count := by
  have ordered := window.first_le_behind
  simp only [slice, skip, List.extract_eq_take_drop, List.drop_take, List.drop_drop]
  rcases Nat.le_total (window.first + count) window.behind with inside | past
  · rw [Nat.min_eq_left inside, Nat.sub_add_eq]
  · have nothing : window.behind - window.first - count = 0 := by omega
    simp [Nat.min_eq_right past, nothing]

theorem slice_take (count : Nat) : (window.take count).slice = window.slice.take count := by
  have ordered := window.first_le_behind
  have width : min window.behind (window.first + count) - window.first =
      min count (window.behind - window.first) := by omega
  simp only [slice, take, List.extract_eq_take_drop, List.take_take, width]

end Window

/-! ## Pages -/

/-- An operation of paging: it skips or takes documents. -/
inductive Page where
  | skip (count : GivenInteger)
  | take (count : GivenInteger)
  deriving DecidableEq, Repr

namespace Page

/-- The integer that is given. -/
def count : Page → GivenInteger
  | .skip n | .take n => n

/-- The operation on queries. -/
def operation : Page → Operation
  | .skip n => .skip (.constant (.ofInteger n))
  | .take n => .take (.constant (.ofInteger n))

/-- The stage, if the integer is a count. -/
def stage (page : Page) : Stage :=
  ⟨page.operation.kind.operator, .num (.int page.count.value.toNat)⟩

/-- The window that is left of a window. -/
def narrow {length : Nat} (window : Window length) : Page → Window length
  | .skip n => window.skip n.value.toNat
  | .take n => window.take n.value.toNat

variable {documents : List Json}

theorem bodyCount_stage (page : Page) :
    Evaluate.bodyCount page.stage = .ok page.count.value.toNat := by
  have nonnegative : (0 : Int) ≤ page.count.value.toNat := Int.natCast_nonneg _
  simp only [Evaluate.bodyCount, stage, Json.int?, if_pos nonnegative, Int.toNat_natCast]

/-- One stage leaves of a window what its page says. -/
theorem applyStage_stage (sorter : Sorter Json) (page : Page) (window : Window documents.length) :
    Evaluate.applyStage sorter page.stage window.slice = .ok (page.narrow window).slice := by
  have counted := page.bodyCount_stage
  cases page with
  | skip n =>
    change (Evaluate.bodyCount (Page.skip n).stage >>= _) = _
    rw [counted, narrow, Window.slice_skip]
    rfl
  | take n =>
    change (Evaluate.bodyCount (Page.take n).stage >>= _) = _
    rw [counted, narrow, Window.slice_take]
    rfl

/-- The stages of pages leave the window that the pages say, one after the other. -/
theorem run_stages (sorter : Sorter Json) (pages : List Page)
    (window : Window documents.length) :
    Evaluate.run sorter (pages.map stage) window.slice = .ok (pages.foldl narrow window).slice := by
  induction pages generalizing window with
  | nil => rfl
  | cons page rest ih =>
    rw [List.map_cons, Evaluate.run, applyStage_stage]
    exact ih (page.narrow window)

section

variable {compiler : Compiler} {page : Page}

/-- The rules for skipping and for taking are registered. -/
structure Registered (rules : RuleSet) : Prop where
  skip : rules .skip = some .skip
  take : rules .take = some .take

theorem stageIn_operation (registered : Registered compiler.rules) (scope : Scope) :
    compiler.stageIn scope page.operation =
      Context.countStage page.operation.kind.operator page.operation.kind
        (.constant (.ofInteger page.count)) := by
  cases page with
  | skip n =>
    simp only [Compiler.stageIn, Context.stage, operation, Operation.kind, registered.skip]
    rfl
  | take n =>
    simp only [Compiler.stageIn, Context.stage, operation, Operation.kind, registered.take]
    rfl

theorem stageIn_of_isCount (registered : Registered compiler.rules) (scope : Scope)
    (isCount : page.count.IsCount) : compiler.stageIn scope page.operation = .ok page.stage := by
  rw [stageIn_operation registered, Context.countStage, Context.count_ofInteger _ isCount]
  rfl

theorem stageIn_refused (registered : Registered compiler.rules) (scope : Scope)
    (noCount : ¬ page.count.IsCount) :
    ∃ fault, page.count.Faults fault ∧ compiler.stageIn scope page.operation =
      .error (.invalidCount page.operation.kind fault) := by
  obtain ⟨fault, faults, refused⟩ := Context.count_refused page.operation.kind noCount
  refine ⟨fault, faults, ?_⟩
  rw [stageIn_operation registered, Context.countStage, refused]
  rfl

theorem lower_of_isCount (registered : Registered compiler.rules) (scope : Scope)
    (isCount : page.count.IsCount) :
    compiler.lower scope page.operation = .ok (page.stage, scope) := by
  have stays : compiler.scopeAfter scope page.operation = .ok scope := by
    cases page <;> rfl
  change (compiler.stageIn scope page.operation >>= _) = _
  rw [stageIn_of_isCount registered scope isCount]
  change (compiler.scopeAfter scope page.operation >>= _) = _
  rw [stays]
  rfl

/-- Pages with counts become their stages. -/
theorem compileFrom_of_isCount (registered : Registered compiler.rules) (scope : Scope)
    {pages : List Page} (counts : ∀ page ∈ pages, page.count.IsCount) (position : Nat) :
    compiler.compileFrom position scope (pages.map operation) = .ok ⟨pages.map stage, scope⟩ := by
  induction pages generalizing position with
  | nil => rfl
  | cons page rest ih =>
    rw [List.forall_mem_cons] at counts
    simp only [List.map_cons, Compiler.compileFrom, lower_of_isCount registered scope counts.1,
      ih counts.2]

theorem isCount_of_compileFrom (registered : Registered compiler.rules) {scope : Scope}
    {pages : List Page} {position : Nat} {query : CompiledQuery}
    (compiled : compiler.compileFrom position scope (pages.map operation) = .ok query) :
    ∀ page ∈ pages, page.count.IsCount := by
  induction pages generalizing position scope query with
  | nil => nofun
  | cons page rest ih =>
    obtain ⟨stage, next, others, staged, -, tail, -⟩ := Compiler.compileFrom_cons_success compiled
    refine List.forall_mem_cons.mpr ⟨?_, ih tail⟩
    apply Decidable.byContradiction
    intro noCount
    obtain ⟨fault, -, refused⟩ := stageIn_refused registered scope noCount
    cases staged.symm.trans refused

/-- The first page without a count ends the build. -/
theorem compileFrom_refused (registered : Registered compiler.rules) (scope : Scope)
    {before : List Page} (counts : ∀ page ∈ before, page.count.IsCount)
    (noCount : ¬ page.count.IsCount) (behind : List Page) (position : Nat) :
    ∃ fault, page.count.Faults fault ∧
      compiler.compileFrom position scope ((before ++ page :: behind).map operation) =
        .error ⟨.invalidCount page.operation.kind fault, page.operation.kind,
          position + before.length⟩ := by
  obtain ⟨fault, faults, refused⟩ := stageIn_refused registered scope noCount
  refine ⟨fault, faults, ?_⟩
  have compiled := compileFrom_of_isCount registered scope counts position
  have stopped := Compiler.compileFrom_refused compiled refused (behind.map operation)
  rwa [List.length_map, ← List.map_cons, ← List.map_append] at stopped

end

end Page

/-- Paging is an exact window. A chain of skips and takes compiles, in whatever scope and behind
whatever operations it stands, exactly if all its integers are counts; otherwise the first one
that is none is refused as an invalid count. The pipeline leaves of a collection the documents
of one window: it starts as the whole, a skip of `n` moves its first place by `n`, and a take of
`n` moves the place behind it to `n` places after the first, each at most to the bound in its way. -/
theorem paging_window (compiler : Compiler) (position : Nat) (scope : Scope) (pages : List Page)
    (store : Store) (registered : Page.Registered compiler.rules) :
    ((∃ query, compiler.compileFrom position scope (pages.map Page.operation) = .ok query) ↔
      ∀ page ∈ pages, page.count.IsCount) ∧
    (∀ before page behind, pages = before ++ page :: behind →
      (∀ earlier ∈ before, earlier.count.IsCount) → ¬ page.count.IsCount →
        ∃ fault, page.count.Faults fault ∧
          compiler.compileFrom position scope (pages.map Page.operation) =
            .error ⟨.invalidCount page.operation.kind fault, page.operation.kind,
              position + before.length⟩) ∧
    ∀ query, compiler.compileFrom position scope (pages.map Page.operation) = .ok query →
      ∀ sorter, store.evaluate sorter query.pipeline =
        .ok (pages.foldl Page.narrow (.whole store.documents.length)).slice := by
  have refuses (before : List Page) (page : Page) (behind : List Page)
      (split : pages = before ++ page :: behind)
      (counts : ∀ earlier ∈ before, earlier.count.IsCount) (noCount : ¬ page.count.IsCount) :=
    split ▸ Page.compileFrom_refused registered scope counts noCount behind position
  refine ⟨⟨?_, ?_⟩, refuses, ?_⟩
  · rintro ⟨query, compiled⟩
    exact Page.isCount_of_compileFrom registered compiled
  · intro counts
    exact ⟨_, Page.compileFrom_of_isCount registered scope counts position⟩
  intro query compiled sorter
  have counts := Page.isCount_of_compileFrom registered compiled
  cases (Page.compileFrom_of_isCount registered scope counts position).symm.trans compiled
  have left := Page.run_stages sorter pages (.whole store.documents.length)
  rwa [Window.slice_whole] at left

/-- Two of four documents, behind a take of as many as a signed word can count; one more is
refused. -/
theorem paging_window_limits :
    let compiler : Compiler := ⟨.standard, fun _ _ => none, {}⟩
    let store : Store := { documents := [.str "a", .str "b", .str "c", .str "d"] }
    let most : Page := .take (.uint64 9223372036854775807)
    let tooMany : Page := .take (.size 9223372036854775808)
    let pages : List Page := [.skip (.int32 1), most, .take (.uint32 2)]
    Page.Registered compiler.rules ∧
      (∃ query, compiler.compile "Letter" (pages.map Page.operation) = .ok query ∧
        store.evaluate .insertion query.pipeline = .ok [.str "b", .str "c"]) ∧
      ∃ fault, tooMany.count.Faults fault ∧
        compiler.compile "Letter" ([.skip (.int32 1), tooMany, most].map Page.operation) =
          .error ⟨.invalidCount .take fault, .take, 1⟩ := by
  intro compiler store most tooMany pages
  have registered : Page.Registered compiler.rules := ⟨rfl, rfl⟩
  obtain ⟨compiles, -, window⟩ :=
    paging_window compiler 0 (.entity "Letter") pages store registered
  obtain ⟨-, refuses, -⟩ := paging_window compiler 0 (.entity "Letter")
    [.skip (.int32 1), tooMany, most] store registered
  obtain ⟨query, compiled⟩ := compiles.mpr (by decide)
  exact ⟨registered, ⟨query, compiled, window query compiled .insertion⟩,
    refuses [.skip (.int32 1)] tooMany [most] rfl (by decide) (by decide)⟩

end DocQuery
