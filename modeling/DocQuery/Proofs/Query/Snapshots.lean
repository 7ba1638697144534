import DocQuery.Query.Processor

/-!
# Snapshots

The order of a tracker's entries is a linear order on their types and keys. A tracker whose
entries ascend strictly holds one entry for each type and key, and keeps doing so whatever is
tracked. Tracking changes what is found under one type and key and nothing else; of several
entries tracked under one key the last is found.
-/
namespace DocQuery

namespace TrackedEntry

instance : Std.TransCmp compareKeys :=
  inferInstanceAs (Std.TransCmp (compareLex (compareOn entityType) (compareOn key)))

/-- An entry is that of a type and key. -/
def IsOf (entry : TrackedEntry) (entityType key : String) : Prop :=
  entry.entityType = entityType ∧ entry.key = key

instance (entry : TrackedEntry) (entityType key : String) : Decidable (entry.IsOf entityType key) :=
  inferInstanceAs (Decidable (_ ∧ _))

theorem compareKeys_eq_iff (a b : TrackedEntry) :
    a.compareKeys b = .eq ↔ a.IsOf b.entityType b.key := by
  rw [compareKeys, Ordering.then_eq_eq, Std.LawfulEqCmp.compare_eq_iff_eq,
    Std.LawfulEqCmp.compare_eq_iff_eq, IsOf]

end TrackedEntry

namespace Tracker

open TrackedEntry

/-- The entries ascend strictly, by type and then by key. -/
def Ordered (tracker : Tracker) : Prop :=
  tracker.entries.Pairwise fun first second => first.compareKeys second = .lt

theorem ordered_empty : ({} : Tracker).Ordered :=
  List.Pairwise.nil

/-! ## Order -/

theorem mem_of_mem_place {entry other : TrackedEntry} {entries : List TrackedEntry}
    (listed : other ∈ place entry entries) : other = entry ∨ other ∈ entries := by
  induction entries with
  | nil => exact List.mem_cons.mp listed
  | cons first rest ih =>
    rw [place] at listed
    split at listed
    · exact List.mem_cons.mp listed
    · rcases List.mem_cons.mp listed with same | listed
      · exact .inl same
      · exact .inr (List.mem_cons_of_mem _ listed)
    · rcases List.mem_cons.mp listed with same | listed
      · exact .inr (List.mem_cons.mpr (.inl same))
      · exact (ih listed).imp_right (List.mem_cons_of_mem _)

/-- Tracking keeps the entries in order. -/
theorem Ordered.track {tracker : Tracker} (ordered : tracker.Ordered) (entry : TrackedEntry) :
    (tracker.track entry).Ordered := by
  rcases tracker with ⟨entries⟩
  rw [Ordered, Tracker.track]
  rw [Ordered] at ordered
  induction entries with
  | nil => exact List.pairwise_singleton _ _
  | cons first rest ih =>
    obtain ⟨below, ordered⟩ := List.pairwise_cons.mp ordered
    simp only [place]
    split
    next less =>
      have tail := List.pairwise_cons.mpr ⟨below, ordered⟩
      refine List.pairwise_cons.mpr ⟨fun other listed => ?_, tail⟩
      rcases List.mem_cons.mp listed with rfl | listed
      · exact less
      · exact Std.TransCmp.lt_trans less (below other listed)
    next same =>
      exact List.pairwise_cons.mpr
        ⟨fun other listed => Std.TransCmp.lt_of_eq_of_lt same (below other listed), ordered⟩
    next greater =>
      refine List.pairwise_cons.mpr ⟨fun other listed => ?_, ih ordered⟩
      rcases mem_of_mem_place listed with rfl | listed
      · exact Std.OrientedCmp.lt_of_gt greater
      · exact below other listed

theorem Ordered.trackAll {tracker : Tracker} (ordered : tracker.Ordered)
    (entries : List TrackedEntry) : (entries.foldl Tracker.track tracker).Ordered := by
  induction entries generalizing tracker with
  | nil => exact ordered
  | cons entry rest ih => exact ih (ordered.track entry)

/-! ## What is found -/

theorem find?_place (entry : TrackedEntry) (entries : List TrackedEntry)
    (entityType key : String) :
    (place entry entries).find? (·.IsOf entityType key) =
      if entry.IsOf entityType key then some entry
      else entries.find? (·.IsOf entityType key) := by
  induction entries with
  | nil => by_cases own : entry.IsOf entityType key <;> simp [place, own]
  | cons first rest ih =>
    rw [place]
    split
    next => by_cases own : entry.IsOf entityType key <;> simp [own]
    next same =>
      -- The entry that is replaced has the type and key of the new one.
      have alike : first.IsOf entityType key ↔ entry.IsOf entityType key := by
        obtain ⟨sameType, sameKey⟩ := (compareKeys_eq_iff entry first).mp same
        rw [IsOf, IsOf, sameType, sameKey]
      by_cases own : entry.IsOf entityType key <;> simp [own, alike]
    next greater =>
      by_cases other : first.IsOf entityType key
      · have different : ¬ entry.IsOf entityType key := by
          rintro ⟨rfl, rfl⟩
          have same := (compareKeys_eq_iff entry first).mpr ⟨other.1.symm, other.2.symm⟩
          rw [same] at greater
          cases greater
        simp [other, different]
      · simp [other, ih]

theorem get?_eq (tracker : Tracker) (entityType key : String) :
    tracker.get? entityType key = tracker.entries.find? (·.IsOf entityType key) := rfl

/-- Tracking changes what is found under one type and key. -/
theorem get?_track (tracker : Tracker) (entry : TrackedEntry) (entityType key : String) :
    (tracker.track entry).get? entityType key =
      if entry.IsOf entityType key then some entry else tracker.get? entityType key :=
  find?_place entry tracker.entries entityType key

theorem get?_trackAll_of_none {entries : List TrackedEntry} {entityType key : String}
    (none : ∀ entry ∈ entries, ¬ entry.IsOf entityType key) (tracker : Tracker) :
    (entries.foldl track tracker).get? entityType key = tracker.get? entityType key := by
  induction entries generalizing tracker with
  | nil => rfl
  | cons entry rest ih =>
    have other := none entry List.mem_cons_self
    have later := ih (fun entry listed => none entry (List.mem_cons_of_mem _ listed))
    rw [List.foldl_cons, later, get?_track, if_neg other]

/-- Of the entries tracked under one type and key, the last is found. -/
theorem get?_trackAll_of_last {earlier later : List TrackedEntry} {entry : TrackedEntry}
    (last : ∀ other ∈ later, ¬ other.IsOf entry.entityType entry.key) (tracker : Tracker) :
    ((earlier ++ entry :: later).foldl track tracker).get? entry.entityType entry.key =
      some entry := by
  rw [List.foldl_append, List.foldl_cons, get?_trackAll_of_none last, get?_track,
    if_pos ⟨rfl, rfl⟩]

/-- In a tracker in order, each entry is what is found under its type and key. -/
theorem Ordered.mem_iff {tracker : Tracker} (ordered : tracker.Ordered) (entry : TrackedEntry) :
    entry ∈ tracker.entries ↔ tracker.get? entry.entityType entry.key = some entry := by
  rcases tracker with ⟨entries⟩
  rw [get?_eq]
  rw [Ordered] at ordered
  constructor
  · intro listed
    induction entries with
    | nil => cases listed
    | cons first rest ih =>
      obtain ⟨below, ordered⟩ := List.pairwise_cons.mp ordered
      rcases List.mem_cons.mp listed with rfl | listed
      · simp [IsOf]
      · have different : ¬ first.IsOf entry.entityType entry.key := by
          intro same
          have less := below entry listed
          rw [(compareKeys_eq_iff first entry).mpr same] at less
          cases less
        rw [List.find?_cons_of_neg (by simpa using different)]
        exact ih ordered listed
  · exact List.mem_of_find?_eq_some

/-! ## How an entity relates to its snapshot -/

variable {τ : Type} (tracker : Tracker) (type : EntityType τ) (entity : τ)

theorem stateOf_eq_none_iff :
    tracker.stateOf type entity = none ↔
      type.key entity = none ∨
        ∃ key, type.key entity = some key ∧ tracker.get? type.name key = none := by
  rw [stateOf]
  cases type.key entity with
  | none => simp
  | some key => cases found : tracker.get? type.name key <;> simp [found]

/-- An entity with a snapshot is unchanged if its document equals the snapshot, and modified
otherwise. -/
theorem stateOf_eq_some_iff (state : EntryState) :
    tracker.stateOf type entity = some state ↔
      ∃ key entry, type.key entity = some key ∧ tracker.get? type.name key = some entry ∧
        state = if (type.encode entity).equal entry.snapshot then .unchanged else .modified := by
  rw [stateOf]
  cases type.key entity with
  | none => simp
  | some key =>
    cases found : tracker.get? type.name key with
    | none => simp [found]
    | some entry =>
      simpa [found] using eq_comm

end Tracker

/-! ## What a journal makes of effects -/

/-- The snapshot that an effect takes. -/
def Effect.snapshot? : Effect → Option TrackedEntry
  | .record _ => none
  | .track entry => some entry

/-- Carrying out effects tracks their snapshots, in order. -/
theorem Journal.tracker_applyAll (journal : Journal) (effects : List Effect) :
    (journal.applyAll effects).tracker =
      (effects.filterMap Effect.snapshot?).foldl Tracker.track journal.tracker := by
  induction effects generalizing journal with
  | nil => rfl
  | cons effect rest ih => cases effect <;> exact ih _

end DocQuery
