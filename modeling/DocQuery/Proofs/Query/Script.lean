import DocQuery.Query.Enumeration

/-!
# Scripts

A script says in advance what pulling gives: the items in order, each with the work that
happens while it is pulled, and the work of the pull that finds the end. The combinators do
with scripts what their namesakes do with asynchronous streams. In particular what `scan`
looks at has already been pulled, and work that leads to no item falls to the next item or
to the end.
-/
namespace DocQuery

/-- A transition and then another. -/
def Transition.andThen : Transition → Transition → Transition
  | first, .keep => first
  | _, .become state => .become state
  | .become state, .settle => .become (Transition.settle.apply state)
  | _, .settle => .settle

/-- What happens while something is pulled. -/
structure Work where
  transition : Transition := .keep
  entries : List Log.Entry := []
  effects : List Effect := []

namespace Work

/-- Nothing happens. -/
def idle : Work := {}

instance : Append Work where
  append first second :=
    { transition := first.transition.andThen second.transition
      entries := first.entries ++ second.entries
      effects := first.effects ++ second.effects }

@[simp] theorem idle_append (work : Work) : idle ++ work = work := by
  rcases work with ⟨transition, entries, effects⟩
  cases transition <;> rfl

@[simp] theorem append_idle (work : Work) : work ++ idle = work := by
  rcases work with ⟨transition, entries, effects⟩
  change Work.mk transition (entries ++ []) (effects ++ []) = _
  rw [List.append_nil, List.append_nil]

end Work

/-- What pulling gives. -/
inductive Script (α : Type) where
  /-- no item is to come -/
  | ends (work : Work)
  | yields (work : Work) (item : α) (rest : Script α)

namespace Script

variable {α β σ : Type}

/-- The items of a list. -/
def ofList : List α → Script α
  | [] => .ends .idle
  | item :: rest => .yields .idle item (ofList rest)

/-- One item, for which some work is done when it is pulled. -/
def once (work : Work) (item : α) : Script α :=
  .yields work item (.ends .idle)

/-- Something made of each item as it is pulled. -/
def map (f : α → Work × β) : Script α → Script β
  | .ends work => .ends work
  | .yields work item rest => .yields (work ++ (f item).1) (f item).2 (map f rest)

/-- What a state makes of each item, up to the first item of which it makes nothing. -/
def scan (f : σ → α → σ × Option β) : σ → Script α → Script β
  | _, .ends work => .ends work
  | state, .yields work item rest =>
    match f state item with
    | (next, some made) => .yields work made (scan f next rest)
    | (_, none) => .ends work

/-- A script with some work before its first pull. -/
def after (before : Work) : Script α → Script α
  | .ends work => .ends (before ++ work)
  | .yields work item rest => .yields (before ++ work) item rest

/-- A script and then another, whose first pull is that which finds the end of the first. -/
def chain : Script α → Script α → Script α
  | .ends work, second => second.after work
  | .yields work item rest, second => .yields work item (chain rest second)

/-- The items of which something is made; what is pulled in vain is part of the next pull. -/
def filterMap (f : α → Option β) : Script α → Script β
  | .ends work => .ends work
  | .yields work item rest =>
    match f item with
    | some made => .yields work made (filterMap f rest)
    | none => (filterMap f rest).after work

/-- The items in order. -/
def items : Script α → List α
  | .ends _ => []
  | .yields _ item rest => item :: rest.items

/-- The effects up to the end. -/
def effects : Script α → List Effect
  | .ends work => work.effects
  | .yields work _ rest => work.effects ++ rest.effects

/-- The entries up to the end. -/
def entries : Script α → List Log.Entry
  | .ends work => work.entries
  | .yields work _ rest => work.entries ++ rest.entries

/-- What the next pull gives. -/
def answer : Script α → Option α
  | .ends _ => none
  | .yields _ item _ => some item

/-- The work of the next pull. -/
def work : Script α → Work
  | .ends work => work
  | .yields work _ _ => work

/-- What is left behind the next pull; there is nothing to do behind the end. -/
def rest : Script α → Script α
  | .ends _ => .ends .idle
  | .yields _ _ rest => rest

/-- What a number of pulls give. -/
def answers : Nat → Script α → List (Option α)
  | 0, _ => []
  | pulls + 1, script => script.answer :: script.rest.answers pulls

/-- The effects of a number of pulls. -/
def effectsOf : Nat → Script α → List Effect
  | 0, _ => []
  | pulls + 1, script => script.work.effects ++ script.rest.effectsOf pulls

/-- The entries of a number of pulls. -/
def entriesOf : Nat → Script α → List Log.Entry
  | 0, _ => []
  | pulls + 1, script => script.work.entries ++ script.rest.entriesOf pulls

@[simp] theorem effectsOf_idle (pulls : Nat) :
    (Script.ends .idle : Script α).effectsOf pulls = [] := by
  induction pulls with
  | zero => rfl
  | succ pulls ih => exact ih

/-- Pulls up to the end have all effects. -/
theorem effectsOf_of_items_lt {pulls : Nat} {script : Script α}
    (enough : script.items.length < pulls) : script.effectsOf pulls = script.effects := by
  induction pulls generalizing script with
  | zero => cases enough
  | succ pulls ih =>
    cases script with
    | yields work item rest =>
      exact congrArg _ (ih (Nat.lt_of_succ_lt_succ enough))
    | ends work =>
      rw [effectsOf, Script.rest, effectsOf_idle, List.append_nil]
      rfl

@[simp] theorem entriesOf_idle (pulls : Nat) :
    (Script.ends .idle : Script α).entriesOf pulls = [] := by
  induction pulls with
  | zero => rfl
  | succ pulls ih => exact ih

/-- Pulls have the entries up to the end, or the first of them. -/
theorem entriesOf_prefix (pulls : Nat) (script : Script α) :
    script.entriesOf pulls <+: script.entries := by
  induction pulls generalizing script with
  | zero => exact List.nil_prefix
  | succ pulls ih =>
    cases script with
    | yields work item rest => exact (List.prefix_append_right_inj work.entries).mpr (ih rest)
    | ends work =>
      rw [entriesOf, Script.rest, entriesOf_idle, List.append_nil]
      exact List.prefix_rfl

theorem entriesOf_of_items_lt {pulls : Nat} {script : Script α}
    (enough : script.items.length < pulls) : script.entriesOf pulls = script.entries := by
  induction pulls generalizing script with
  | zero => cases enough
  | succ pulls ih =>
    cases script with
    | yields work item rest =>
      exact congrArg _ (ih (Nat.lt_of_succ_lt_succ enough))
    | ends work =>
      rw [entriesOf, Script.rest, entriesOf_idle, List.append_nil]
      rfl

/-- Pulls give the items and then the end, over and over. -/
theorem answers_eq (pulls : Nat) (script : Script α) :
    script.answers pulls =
      (script.items.map some ++ List.replicate pulls none).take pulls := by
  induction pulls generalizing script with
  | zero => simp [answers]
  | succ pulls ih =>
    rw [answers, ih]
    cases script with
    | ends work => simp [answer, rest, items, List.replicate_succ]
    | yields work item rest =>
      simp only [answer, Script.rest, items, List.map_cons, List.cons_append,
        List.take_succ_cons, List.cons.injEq, true_and]
      rw [List.take_append, List.take_append, List.take_replicate, List.take_replicate]
      congr 2
      omega

end Script
end DocQuery
