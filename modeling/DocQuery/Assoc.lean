/-!
# Association lists

Entries under names, in the order in which the names were first given. `insert`
replaces the value of a known name in its place and adds a new name at the end,
so distinct names stay distinct (`distinct_insert`, `distinct_insertAll`).
-/
namespace DocQuery

/-- Values under names, in order. -/
abbrev Assoc (β : Type) := List (String × β)

namespace Assoc

variable {β : Type}

def get? : Assoc β → String → Option β
  | [], _ => none
  | (key, value) :: rest, name => if key = name then some value else get? rest name

def has (entries : Assoc β) (name : String) : Bool :=
  (entries.get? name).isSome

/-- Sets an entry: a new one comes last, a known one keeps its place. -/
def insert : Assoc β → String → β → Assoc β
  | [], name, value => [(name, value)]
  | (key, old) :: rest, name, value =>
    if key = name then (key, value) :: rest else (key, old) :: insert rest name value

/-- The entries of a list of pairs: a repeated name keeps its first place and its
last value. -/
def ofList (pairs : List (String × β)) : Assoc β :=
  pairs.foldl (fun entries pair => insert entries pair.1 pair.2) []

def keys (entries : Assoc β) : List String :=
  entries.map Prod.fst

/-- No name occurs twice. -/
def Distinct (entries : Assoc β) : Prop :=
  entries.keys.Nodup

theorem get?_cons (entry : String × β) (rest : Assoc β) (name : String) :
    get? (entry :: rest) name = if entry.1 = name then some entry.2 else rest.get? name :=
  rfl

theorem insert_cons (entry : String × β) (rest : Assoc β) (name : String) (value : β) :
    insert (entry :: rest) name value =
      if entry.1 = name then (entry.1, value) :: rest else entry :: insert rest name value :=
  rfl

theorem get?_insert_self (entries : Assoc β) (name : String) (value : β) :
    (entries.insert name value).get? name = some value := by
  induction entries with
  | nil => exact if_pos rfl
  | cons pair rest ih =>
    rw [insert_cons]
    split
    · simp [get?_cons, *]
    · simp [get?_cons, *]

theorem get?_insert_of_ne (entries : Assoc β) {name other : String} (value : β)
    (h : name ≠ other) : (entries.insert name value).get? other = entries.get? other := by
  induction entries with
  | nil => exact if_neg h
  | cons pair rest ih =>
    rw [insert_cons]
    split
    · next heq => simp [get?_cons, heq, h]
    · simp [get?_cons, ih]

theorem get?_eq_none_iff (entries : Assoc β) (name : String) :
    entries.get? name = none ↔ name ∉ entries.keys := by
  induction entries with
  | nil => simp [get?, keys]
  | cons pair rest ih =>
    simp only [get?_cons, keys, List.map_cons, List.mem_cons, not_or]
    split
    · next h => simp [h]
    · next h => simpa [keys, Ne.symm h] using ih

theorem mem_of_get? {entries : Assoc β} {name : String} {value : β}
    (found : entries.get? name = some value) : (name, value) ∈ entries := by
  induction entries with
  | nil => cases found
  | cons pair rest ih =>
    obtain ⟨key, first⟩ := pair
    rw [get?_cons] at found
    split at found
    · next here =>
      cases here
      cases found
      exact List.mem_cons_self
    · simp [ih found]

theorem has_iff (entries : Assoc β) (name : String) :
    entries.has name = true ↔ name ∈ entries.keys := by
  have := get?_eq_none_iff entries name
  simp only [has, Option.isSome_iff_ne_none, ne_eq, this, Decidable.not_not]

theorem keys_append (entries others : Assoc β) :
    keys (entries ++ others) = entries.keys ++ others.keys :=
  List.map_append

theorem distinct_cons (name : String) (value : β) (rest : Assoc β) :
    Distinct ((name, value) :: rest) ↔ (∀ entry ∈ rest, entry.1 ≠ name) ∧ rest.Distinct := by
  simp only [Distinct, keys, List.map_cons, List.nodup_cons, List.mem_map, not_exists, not_and]

/-- Insertion adds a name at the end or leaves the names as they are. -/
theorem keys_insert (entries : Assoc β) (name : String) (value : β) :
    (entries.insert name value).keys =
      if name ∈ entries.keys then entries.keys else entries.keys ++ [name] := by
  induction entries with
  | nil => simp [insert, keys]
  | cons pair rest ih =>
    simp only [insert_cons, keys, List.map_cons, List.mem_cons]
    split
    · next h => simp [h]
    · next h =>
      simp only [keys] at ih
      simp only [List.map_cons, ih, Ne.symm h, false_or]
      split <;> simp [*]

/-- Adding an absent name puts it at the end. -/
theorem insert_of_absent (entries : Assoc β) {name : String} (value : β)
    (absent : entries.has name = false) :
    entries.insert name value = entries ++ [(name, value)] := by
  induction entries with
  | nil => rfl
  | cons pair rest ih =>
    obtain ⟨key, old⟩ := pair
    have other : key ≠ name := by
      rintro rfl
      simp [has, get?_cons] at absent
    have restAbsent : has rest name = false := by
      simpa [has, get?_cons, other] using absent
    rw [insert_cons, if_neg other, ih restAbsent, List.cons_append]

theorem distinct_insert {entries : Assoc β} (h : entries.Distinct) (name : String) (value : β) :
    (entries.insert name value).Distinct := by
  simp only [Distinct, keys_insert]
  split
  · exact h
  · next absent =>
    refine List.nodup_append.mpr ⟨h, by simp, ?_⟩
    intro a ha b hb heq
    rw [List.mem_singleton] at hb
    exact absent (hb ▸ heq ▸ ha)

def insertAll (entries : Assoc β) (pairs : List (String × β)) : Assoc β :=
  pairs.foldl (fun entries pair => entries.insert pair.1 pair.2) entries

theorem insertAll_cons (entries : Assoc β) (pair : String × β) (rest : List (String × β)) :
    entries.insertAll (pair :: rest) = (entries.insert pair.1 pair.2).insertAll rest := rfl

theorem mem_keys_insertAll (entries : Assoc β) (pairs : List (String × β)) (name : String) :
    name ∈ (entries.insertAll pairs).keys ↔ name ∈ entries.keys ∨ name ∈ keys pairs := by
  induction pairs generalizing entries with
  | nil => simp [insertAll, keys]
  | cons pair rest ih =>
    have names : keys (pair :: rest) = pair.1 :: keys rest := rfl
    rw [insertAll_cons, ih, keys_insert, names, List.mem_cons, ← or_assoc]
    apply or_congr_left
    split
    · next known => exact ⟨.inl, fun given => given.elim id fun same => same ▸ known⟩
    · rw [List.mem_append, List.mem_singleton]

theorem distinct_insertAll {entries : Assoc β} (distinct : entries.Distinct)
    (pairs : List (String × β)) : (entries.insertAll pairs).Distinct := by
  induction pairs generalizing entries with
  | nil => exact distinct
  | cons pair rest ih => exact ih (distinct_insert distinct pair.1 pair.2)

/-- Entries of new and different names are added as they are. -/
theorem insertAll_of_distinct {entries added : Assoc β} (distinct : Distinct (entries ++ added)) :
    entries.insertAll added = entries ++ added := by
  induction added generalizing entries with
  | nil => simp [insertAll]
  | cons pair rest ih =>
    have absent : entries.has pair.1 = false := by
      rw [Bool.eq_false_iff, ne_eq, has_iff]
      intro known
      unfold Distinct keys at distinct
      rw [List.map_append, List.nodup_append] at distinct
      exact distinct.2.2 pair.1 known pair.1 (by simp) rfl
    rw [insertAll_cons, insert_of_absent entries pair.2 absent]
    rw [List.append_cons] at distinct
    rw [ih distinct, ← List.append_cons]

/-- Pairs of different names are the entries themselves. -/
theorem ofList_of_distinct {pairs : Assoc β} (distinct : pairs.Distinct) : ofList pairs = pairs :=
  insertAll_of_distinct distinct

end Assoc

end DocQuery
