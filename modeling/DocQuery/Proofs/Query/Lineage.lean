import DocQuery.Proofs.Query.Lifecycle

/-!
# Where queries come from

Queries form trees: each was opened over the store or built from one before it, by appending an
operation, by copying it, or by giving it another configuration. Building adds a query and changes
nothing else, and no command changes anything of a query but its state. So what a query is can be
read off its origin, the root of its tree and the steps that lead from there, and the queries of
one tree, and no others, refer to one chain of processors (`query_of_lineage`).
-/
namespace DocQuery

variable {τ : Type}

/-- A step that builds a query from another one. -/
inductive Building where
  | append (operation : Operation)
  | duplicate
  | configure (config : Config)

/-- The steps from the root of a tree to a query. -/
abbrev Lineage := List Building

namespace Building

def command : Building → Nat → Command τ
  | .append operation, query => .append query operation
  | .duplicate, query => .duplicate query
  | .configure config, query => .configure query config

/-- The operation that a step appends. -/
def operation? : Building → Option Operation
  | .append operation => some operation
  | _ => none

/-- The configuration that a step gives. -/
def config? : Building → Option Config
  | .configure config => some config
  | _ => none

/-- The query that a step builds. -/
def child : Building → Query → Query
  | .append operation, parent =>
    { parent with chain := parent.chain.append operation, state := .unmaterialized }
  | .duplicate, parent => { parent with state := .unmaterialized }
  | .configure config, parent => { parent with config, state := .unmaterialized }

end Building

namespace Lineage

/-- The operations along a lineage, in the order in which they were appended. -/
def operations (lineage : Lineage) : List Operation :=
  lineage.filterMap Building.operation?

/-- The configuration that was given last, or else that of the first query. -/
def config (root : Config) (lineage : Lineage) : Config :=
  (lineage.filterMap Building.config?).getLast?.getD root

theorem operations_concat (lineage : Lineage) (building : Building) :
    operations (lineage ++ [building]) = lineage.operations ++ building.operation?.toList := by
  rw [operations, List.filterMap_append, operations]
  cases building <;> rfl

theorem config_concat (root : Config) (lineage : Lineage) (building : Building) :
    config root (lineage ++ [building]) = building.config?.getD (lineage.config root) := by
  rw [config, List.filterMap_append]
  cases building with
  | configure config => simp [Building.config?]
  | append | duplicate => simp [Building.config?, config]

end Lineage

/-- Where a query comes from: the number of the root, what that was opened with, and the steps
from there. -/
structure Origin where
  root : Nat
  mapping : FieldMapping
  config : Config
  lineage : Lineage := []

def Origin.then (origin : Origin) (building : Building) : Origin :=
  { origin with lineage := origin.lineage ++ [building] }

/-- The origin of the query that a command adds. -/
def Command.origin? (origins : List Origin) (id : Nat) : Command τ → Option Origin
  | .root mapping config => some { root := id, mapping, config }
  | .append parent operation => origins[parent]?.map (·.then (.append operation))
  | .duplicate parent => origins[parent]?.map (·.then .duplicate)
  | .configure parent config => origins[parent]?.map (·.then (.configure config))
  | _ => none

/-- The origins of queries behind one more command, by its answer. -/
def derive (origins : List Origin) (command : Command τ) : Answer τ → List Origin
  | .query id => origins ++ (command.origin? origins id).toList
  | _ => origins

/-- The origins of queries behind commands, by the answers to them. -/
def deriveAll (origins : List Origin) :
    List (Command τ) → List (Answer τ × List Log.Entry) → List Origin
  | command :: commands, reply :: replies =>
    deriveAll (derive origins command reply.1) commands replies
  | _, _ => origins

theorem Command.enumerates_of_starts {command : Command τ} {id : Nat}
    (starts : command.starts = some id) : command.enumerates = some id := by
  cases command <;> first | exact starts | cases starts

/-! ## Queries by their origins -/

/-- A query but for its state. -/
def Query.plan (query : Query) : Query :=
  { query with state := .unmaterialized }

/-- What a query is by its origin. -/
structure Origin.Leads (origin : Origin) (plan : Query) : Prop where
  operations : plan.chain.operations = origin.lineage.operations
  mapping : plan.mapping = origin.mapping
  config : plan.config = origin.lineage.config origin.config

theorem Origin.Leads.child {origin : Origin} {parent : Query} (leads : origin.Leads parent)
    (building : Building) : (origin.then building).Leads (building.child parent) where
  operations := by
    rw [Origin.then, Lineage.operations_concat, ← leads.operations]
    cases building with
    | append => rfl
    | duplicate | configure => exact (List.append_nil _).symm
  mapping := by cases building <;> exact leads.mapping
  config := by
    rw [Origin.then, Lineage.config_concat, ← leads.config]
    cases building <;> rfl

/-- Queries are what their origins say. They refer to chains of processors that there are, and
two of them to the same one exactly if they come from the same root. -/
structure Derives (chains : Nat) (plans : List Query) (origins : List Origin) : Prop where
  length : origins.length = plans.length
  leads : ∀ pair ∈ origins.zip plans, pair.1.Leads pair.2
  shared : ∀ first ∈ origins.zip plans, ∀ second ∈ origins.zip plans,
    first.2.processors = second.2.processors ↔ first.1.root = second.1.root
  known : ∀ pair ∈ origins.zip plans, pair.2.processors < chains
  rooted : ∀ origin ∈ origins, ∃ first, origins[origin.root]? = some first ∧
    first.root = origin.root

namespace Derives

variable {chains : Nat} {plans : List Query} {origins : List Origin}

theorem root_lt (derives : Derives chains plans origins) {origin : Origin}
    (listed : origin ∈ origins) : origin.root < origins.length := by
  obtain ⟨first, found, -⟩ := derives.rooted origin listed
  exact (List.getElem?_eq_some_iff.mp found).1

theorem mem_zip {id : Nat} {plan : Query} {origin : Origin} (found : plans[id]? = some plan)
    (known : origins[id]? = some origin) : (origin, plan) ∈ origins.zip plans := by
  apply List.mem_of_getElem? (i := id)
  rw [List.getElem?_zip_eq_some]
  exact ⟨known, found⟩

theorem mem_zip_concat (derives : Derives chains plans origins) {origin : Origin} {plan : Query}
    {pair : Origin × Query} (listed : pair ∈ (origins ++ [origin]).zip (plans ++ [plan])) :
    pair ∈ origins.zip plans ∨ pair = (origin, plan) := by
  rw [List.zip_append derives.length, List.mem_append] at listed
  exact listed.imp_right List.mem_singleton.mp

/-- A root that is known already is still there when an origin is added. -/
theorem rooted_concat (derives : Derives chains plans origins) {other : Origin}
    (listed : other ∈ origins) (origin : Origin) :
    ∃ first, (origins ++ [origin])[other.root]? = some first ∧ first.root = other.root := by
  obtain ⟨first, found, same⟩ := derives.rooted other listed
  exact ⟨first, by rw [List.getElem?_append_left (derives.root_lt listed), found], same⟩

/-- A query that is built from another one has the root and the chain of that one. -/
theorem child (derives : Derives chains plans origins) {id : Nat} {plan : Query} {origin : Origin}
    (found : plans[id]? = some plan) (known : origins[id]? = some origin) (building : Building) :
    Derives chains (plans ++ [building.child plan]) (origins ++ [origin.then building]) := by
  have pair : (origin, plan) ∈ origins.zip plans := mem_zip found known
  have processors : (building.child plan).processors = plan.processors := by cases building <;> rfl
  -- The new query stands where its parent does.
  have stands : ∀ other ∈ (origins ++ [origin.then building]).zip (plans ++ [building.child plan]),
      ∃ old ∈ origins.zip plans, old.2.processors = other.2.processors ∧
        old.1.root = other.1.root := by
    intro other listed
    rcases derives.mem_zip_concat listed with older | rfl
    · exact ⟨other, older, rfl, rfl⟩
    · exact ⟨_, pair, processors.symm, rfl⟩
  refine ⟨?_, ?_, ?_, ?_, ?_⟩
  · rw [List.length_append, List.length_append, derives.length]
    rfl
  · intro other listed
    rcases derives.mem_zip_concat listed with older | rfl
    · exact derives.leads other older
    · exact (derives.leads _ pair).child building
  · intro first one second two
    obtain ⟨old, older, numbers, roots⟩ := stands first one
    obtain ⟨twin, elder, others, bases⟩ := stands second two
    rw [← numbers, ← roots, ← others, ← bases]
    exact derives.shared old older twin elder
  · intro other listed
    obtain ⟨old, older, numbers, -⟩ := stands other listed
    exact numbers ▸ derives.known old older
  · intro other listed
    rcases List.mem_append.mp listed with older | new
    · exact derives.rooted_concat older _
    · cases List.mem_singleton.mp new
      have based := derives.rooted_concat (List.mem_of_getElem? known) (origin.then building)
      exact based

/-- A query that is opened over the store has a chain of its own. -/
theorem root (derives : Derives chains plans origins) (mapping : FieldMapping) (config : Config) :
    Derives (chains + 1) (plans ++ [{ processors := chains, mapping, config }])
      (origins ++ [{ root := origins.length, mapping, config }]) := by
  have apart : ∀ pair ∈ origins.zip plans,
      pair.2.processors < chains ∧ pair.1.root < origins.length := fun pair listed =>
    ⟨derives.known pair listed, derives.root_lt (List.of_mem_zip listed).1⟩
  refine ⟨?_, ?_, ?_, ?_, ?_⟩
  · rw [List.length_append, List.length_append, derives.length]
    rfl
  · intro other listed
    rcases derives.mem_zip_concat listed with older | rfl
    · exact derives.leads other older
    · exact ⟨rfl, rfl, rfl⟩
  · intro first one second two
    rcases derives.mem_zip_concat one with older | rfl <;>
      rcases derives.mem_zip_concat two with elder | rfl
    · exact derives.shared first older second elder
    · obtain ⟨number, base⟩ := apart first older
      exact iff_of_false (Nat.ne_of_lt number) (Nat.ne_of_lt base)
    · obtain ⟨number, base⟩ := apart second elder
      exact iff_of_false (Nat.ne_of_gt number) (Nat.ne_of_gt base)
    · exact iff_of_true rfl rfl
  · intro other listed
    rcases derives.mem_zip_concat listed with older | rfl
    · exact Nat.lt_succ_of_lt (derives.known other older)
    · exact Nat.lt_succ_self chains
  · intro other listed
    rcases List.mem_append.mp listed with older | new
    · exact derives.rooted_concat older _
    · cases List.mem_singleton.mp new
      exact ⟨_, List.getElem?_concat_length, rfl⟩

/-- What a query is by its origin, whose root refers to the same chain as no query of another
root does. -/
theorem origin (derives : Derives chains plans origins) {id : Nat} {plan : Query}
    (found : plans[id]? = some plan) :
    ∃ origin first, origins[id]? = some origin ∧ plans[origin.root]? = some first ∧
      origin.Leads plan ∧ plan.processors = first.processors ∧
      ∀ (other : Nat) (twin : Query) (relative : Origin),
        plans[other]? = some twin → origins[other]? = some relative →
        (twin.processors = plan.processors ↔ relative.root = origin.root) := by
  obtain ⟨inside, -⟩ := List.getElem?_eq_some_iff.mp found
  rw [← derives.length] at inside
  have known : origins[id]? = some origins[id] := List.getElem?_eq_getElem inside
  have pair := mem_zip found known
  obtain ⟨base, based, same⟩ := derives.rooted _ (List.getElem_mem inside)
  obtain ⟨within, -⟩ := List.getElem?_eq_some_iff.mp based
  rw [derives.length] at within
  have first : plans[origins[id].root]? = some plans[origins[id].root] :=
    List.getElem?_eq_getElem within
  refine ⟨origins[id], _, known, first, derives.leads _ pair, ?_, ?_⟩
  · exact (derives.shared _ pair _ (mem_zip first based)).mpr same.symm
  · intro other twin relative listed related
    exact derives.shared _ (mem_zip listed related) _ pair

end Derives

namespace Session

variable (env : Environment τ) {session : Session τ}

/-- All queries of a session but for their states. -/
def plans (session : Session τ) : List Query :=
  session.queries.map Query.plan

theorem getElem?_plans {id : Nat} {query : Query} (found : session.queries[id]? = some query) :
    session.plans[id]? = some query.plan := by
  rw [plans, List.getElem?_map, found]
  rfl

/-! ## Building -/

/-- Building adds a query and changes nothing else. -/
theorem step_building {id : Nat} {parent : Query} (found : session.queries[id]? = some parent)
    (building : Building) :
    session.step env (building.command id) =
      { session := { session with queries := session.queries ++ [building.child parent] }
        answer := .query session.queries.length } := by
  cases building <;> rw [Building.command, step, withQuery, found] <;> rfl

theorem step_building_of_unknown {id : Nat} (unknown : session.queries[id]? = none)
    (building : Building) :
    session.step env (building.command id) = { session, answer := .unknown } := by
  cases building <;> rw [Building.command, step, withQuery, unknown]

theorem session_step_compile (id : Nat) : (session.step env (.compile id)).session = session := by
  rw [step]
  exact withQuery_elim id _ rfl fun query _ => rfl

/-- Setting the state of a query keeps all plans. -/
theorem plans_setState (id : Nat) (state : QueryState) :
    (session.setState id state).plans = session.plans := by
  have modified : (session.setState id state).plans = session.plans.modify id (·) := by
    refine map_modify ?_ id session.queries
    exact fun _ => rfl
  rw [modified]
  exact List.modify_id id _

/-- A command that builds can add queries. No command changes more than the state of one that
there is. -/
theorem plans_step (command : Command τ) :
    ∃ added, (session.step env command).session.plans = session.plans ++ added ∧
      (command.builds = false → added = []) := by
  have after := session.queries_step env command
  rw [plans]
  generalize (session.step env command).session.queries = queries at after ⊢
  have kept : session.plans = session.plans ++ [] := (List.append_nil _).symm
  cases after with
  | kept => exact ⟨[], kept, fun _ => rfl⟩
  | added query fresh builds =>
    exact ⟨[query.plan], List.map_append, fun closed => nomatch closed.symm.trans builds⟩
  | started id state => exact ⟨[], (plans_setState id state).trans kept, fun _ => rfl⟩
  | pulled id pull => exact ⟨[], (plans_setState pull.query _).trans kept, fun _ => rfl⟩

theorem getElem?_plans_step {id : Nat} {plan : Query} (found : session.plans[id]? = some plan)
    (command : Command τ) : (session.step env command).session.plans[id]? = some plan := by
  obtain ⟨added, grown, -⟩ := plans_step env command
  rw [grown, List.getElem?_append_left (List.getElem?_eq_some_iff.mp found).1, found]

/-- Chains of processors are only ever added, one by each command that opens a query. -/
theorem length_chains_step (command : Command τ) :
    (session.step env command).session.chains.length =
      session.chains.length + command.opens.length := by
  cases enumerates : session.enumerated command with
  | some query =>
    have closed : command.opens = [] := by cases command <;> first | rfl | cases enumerates
    obtain ⟨queries, pulls, journal, stepped⟩ := step_enumerating env enumerates
    rw [stepped, closed]
    simp only [chains_start, List.length_set]
    rfl
  | none =>
    cases registers : command.registers with
    | none =>
      rw [(step_unenumerating env enumerates).1 registers, List.length_append]
    | some registered =>
      cases command with
      | register id processor =>
        rw [step]
        refine withQuery_elim id _ rfl fun query _ => ?_
        rw [register]
        cases (session.chainOf query).add processor with
        | ok chain => exact List.length_set
        | error error => rfl
      | _ => cases registers

/-! ## Origins -/

theorem known_of_derives {origins : List Origin}
    (derives : Derives session.chains.length session.plans origins) {id : Nat} {query : Query}
    (found : session.queries[id]? = some query) : query.processors < session.chains.length := by
  obtain ⟨inside, -⟩ := List.getElem?_eq_some_iff.mp (getElem?_plans found)
  rw [← derives.length] at inside
  exact derives.known _
    (Derives.mem_zip (getElem?_plans found) (List.getElem?_eq_getElem inside))

theorem derive_of_unbuilding {command : Command τ} (unbuilding : command.builds = false)
    (origins : List Origin) (answer : Answer τ) : derive origins command answer = origins := by
  have nothing : ∀ id, command.origin? origins id = none := by
    cases command <;> first | exact fun _ => rfl | cases unbuilding
  cases answer with
  | query id => rw [derive, nothing, Option.toList_none, List.append_nil]
  | _ => rfl

/-- A step from a query that there is derives its origin from that of the query. -/
theorem derives_step_building {origins : List Origin}
    (derives : Derives session.chains.length session.plans origins) (building : Building)
    (id : Nat) :
    let reply := session.step env (building.command id)
    Derives reply.session.chains.length reply.session.plans
      (derive origins (building.command id : Command τ) reply.answer) := by
  intro reply
  cases found : session.queries[id]? with
  | none =>
    rw [show reply = _ from step_building_of_unknown env found building]
    exact derives
  | some parent =>
    have planned := getElem?_plans found
    obtain ⟨inside, -⟩ := List.getElem?_eq_some_iff.mp planned
    rw [← derives.length] at inside
    have known : origins[id]? = some origins[id] := List.getElem?_eq_getElem inside
    have origin : (building.command id : Command τ).origin? origins session.queries.length =
        some (origins[id].then building) := by
      cases building <;> simp only [Building.command, Command.origin?, known, Option.map_some]
    have plan : (building.child parent).plan = building.child parent.plan := by
      cases building <;> rfl
    have grown : ({ session with queries := session.queries ++ [building.child parent] } :
        Session τ).plans = session.plans ++ [building.child parent.plan] := by
      rw [plans, List.map_append, List.map_singleton, plan, ← plans]
    rw [show reply = _ from step_building env found building]
    simp only [derive, origin, grown, Option.toList_some]
    exact derives.child planned known building

/-- One command keeps the queries what their origins say. -/
theorem derives_step {origins : List Origin}
    (derives : Derives session.chains.length session.plans origins) (command : Command τ) :
    let reply := session.step env command
    Derives reply.session.chains.length reply.session.plans
      (derive origins command reply.answer) := by
  intro reply
  cases builds : command.builds with
  | false =>
    have closed : command.opens = [] := by cases command <;> first | rfl | cases builds
    have chains : reply.session.chains.length = session.chains.length := by
      rw [length_chains_step, closed]
      rfl
    obtain ⟨added, plans, nothing⟩ := plans_step env command
    rw [nothing builds, List.append_nil] at plans
    rw [chains, plans, derive_of_unbuilding builds]
    exact derives
  | true =>
    cases command with
    | append id operation => exact derives_step_building env derives (.append operation) id
    | duplicate id => exact derives_step_building env derives .duplicate id
    | configure id config => exact derives_step_building env derives (.configure config) id
    | root mapping config =>
      have count : session.queries.length = origins.length := by
        rw [derives.length, plans, List.length_map]
      have chains : reply.session.chains.length = session.chains.length + 1 :=
        length_chains_step env _
      have opened : reply.session.plans =
          session.plans ++ [{ processors := session.chains.length, mapping, config }] :=
        List.map_append
      have origin : derive origins (.root mapping config : Command τ) reply.answer =
          origins ++ [{ root := session.queries.length, mapping, config }] := rfl
      rw [chains, opened, origin, count]
      exact derives.root mapping config
    | _ => cases builds

/-- A run keeps the queries what their origins say. -/
theorem derives_run {origins : List Origin}
    (derives : Derives session.chains.length session.plans origins) (commands : List (Command τ)) :
    let run := session.run env commands
    Derives run.1.chains.length run.1.plans (deriveAll origins commands run.2) := by
  induction commands generalizing session origins with
  | nil => exact derives
  | cons command commands ih => exact ih (derives_step env derives command)

theorem derives_ofStore (store : Store) (mapping : FieldMapping) (config : Config) :
    let fresh : Session τ := .ofStore store mapping config
    Derives fresh.chains.length fresh.plans [{ root := 0, mapping, config }] where
  length := rfl
  leads pair listed := by
    cases List.mem_singleton.mp listed
    exact ⟨rfl, rfl, rfl⟩
  shared first one second two := by
    cases List.mem_singleton.mp one
    cases List.mem_singleton.mp two
    exact iff_of_true rfl rfl
  known pair listed := by
    cases List.mem_singleton.mp listed
    exact Nat.zero_lt_one
  rooted origin listed := by
    cases List.mem_singleton.mp listed
    exact ⟨_, rfl, rfl⟩

/-! ## States -/

/-- All enumerations report to queries that there are. -/
def OwnersKnown (session : Session τ) : Prop :=
  ∀ pull ∈ session.pulls, ∀ query, pull.owner = some query → query < session.queries.length

variable {env}

theorem OwnersKnown.step (known : session.OwnersKnown) (command : Command τ) :
    (session.step env command).session.OwnersKnown := by
  have grows := session.length_queries_step env command
  intro pull listed query owner
  refine Nat.lt_of_lt_of_le ?_ grows
  have after := session.pulls_step env command
  generalize (session.step env command).session.pulls = pulls at after listed
  cases after with
  | kept => exact known pull listed query owner
  | added new starts other enumerated =>
    rcases List.mem_append.mp listed with listed | listed
    · exact known pull listed query owner
    · cases List.mem_singleton.mp listed
      rw [Session.enumerated, Command.enumerates_of_starts (starts query owner)] at enumerated
      exact (List.getElem?_eq_some_iff.mp enumerated).1
  | pulled id other pulls found =>
    rcases List.mem_or_eq_of_mem_set listed with listed | rfl
    · exact known pull listed query owner
    · rw [Pull.owner_advance] at owner
      exact known other (List.mem_of_getElem? found) query owner

theorem OwnersKnown.run (known : session.OwnersKnown) (commands : List (Command τ)) :
    (session.run env commands).1.OwnersKnown := by
  induction commands generalizing session with
  | nil => exact known
  | cons command commands ih => exact ih (known.step command)

variable (env)

/-- A query that was just built is unmaterialized until an enumeration of it is started. -/
theorem stateOf_run_building (known : session.OwnersKnown) {id : Nat} {parent : Query}
    (found : session.queries[id]? = some parent) (building : Building)
    {later : List (Command τ)}
    (unstarted : ∀ command ∈ later, command.starts ≠ some session.queries.length) :
    ((session.step env (building.command id)).session.run env later).1.stateOf
      session.queries.length = .unmaterialized := by
  rw [step_building env found building]
  have fresh : ∀ other,
      { session with queries := session.queries ++ [building.child parent] }.ownerOf other ≠
        some session.queries.length := by
    intro other owned
    obtain ⟨pull, pulled, owner⟩ := Option.bind_eq_some_iff.mp owned
    exact Nat.lt_irrefl _ (known pull (List.mem_of_getElem? pulled) _ owner)
  rw [stateOf_run_of_unstarted env fresh unstarted, stateOf, List.getElem?_concat_length]
  cases building <;> rfl

/-- Building adds an unmaterialized query that refers to its parent's chain of processors, and
changes nothing else, and compiling changes nothing. In every session over a store there is one
query for each origin: its operations are those appended along the lineage, its mapping is that of
the root, its configuration is the one given last on the lineage, or else that of the root. It
refers to the chain of processors that its root does, and that no query of another root does; an
enumeration of it seals that chain and runs its processors. Whatever is built from a query stays
unmaterialized until an enumeration of it is started. -/
theorem query_of_lineage (env : Environment τ) :
    (∀ (session : Session τ) (building : Building) id,
      let reply := session.step env (building.command id)
      match session.queries[id]? with
      | none => reply.answer = .unknown ∧ reply.session = session
      | some parent => reply.answer = .query session.queries.length ∧
        ∃ child, reply.session = { session with queries := session.queries ++ [child] } ∧
          child.processors = parent.processors ∧ child.state = .unmaterialized) ∧
    (∀ (session : Session τ) id, (session.step env (.compile id)).session = session) ∧
    ∀ store mapping config (commands : List (Command τ)),
      let run := (Session.ofStore store mapping config).run env commands
      let origins := deriveAll [{ root := 0, mapping, config }] commands run.2
      origins.length = run.1.queries.length ∧
      ∀ id query, run.1.queries[id]? = some query →
        (∃ origin root, origins[id]? = some origin ∧ run.1.queries[origin.root]? = some root ∧
          query.chain.operations = origin.lineage.operations ∧
          query.chain.depth = origin.lineage.operations.length ∧
          query.mapping = origin.mapping ∧
          query.config = origin.lineage.config origin.config ∧
          query.processors = root.processors ∧
          ∀ (other : Nat) (twin : Query) (relative : Origin),
            run.1.queries[other]? = some twin → origins[other]? = some relative →
            (twin.processors = query.processors ↔ relative.root = origin.root)) ∧
        (run.1.start env query).session.chains =
          run.1.chains.set query.processors (run.1.chainOf query).close ∧
        Prepares ⟨env.type, !query.selects, (run.1.chainOf query).processors⟩
          (run.1.start env query).start (run.1.resultsOf env query) ∧
        ∀ building later, (∀ command ∈ later, command.starts ≠ some run.1.queries.length) →
          let built := run.1.step env (Building.command building id)
          let last := built.session.run env later
          last.1.stateOf run.1.queries.length = .unmaterialized := by
  refine ⟨?_, fun _ => session_step_compile env, ?_⟩
  · intro session building id reply
    split
    next unknown =>
      rw [show reply = _ from step_building_of_unknown env unknown building]
      exact ⟨rfl, rfl⟩
    next parent found =>
      rw [show reply = _ from step_building env found building]
      refine ⟨rfl, building.child parent, rfl, ?_⟩
      cases building <;> exact ⟨rfl, rfl⟩
  · intro store mapping config commands run origins
    have derives : Derives run.1.chains.length run.1.plans origins :=
      derives_run env (derives_ofStore store mapping config) commands
    have known : run.1.OwnersKnown :=
      OwnersKnown.run (fun _ listed => (List.not_mem_nil listed).elim) commands
    refine ⟨derives.length.trans (List.length_map _), ?_⟩
    intro id query found
    refine ⟨?_, run.1.chains_start env query, run.1.prepares_start env query, ?_⟩
    · obtain ⟨origin, first, listed, based, leads, same, shared⟩ :=
        derives.origin (getElem?_plans found)
      rw [plans, List.getElem?_map, Option.map_eq_some_iff] at based
      obtain ⟨root, base, rfl⟩ := based
      refine ⟨origin, root, listed, base, leads.operations, ?_, leads.mapping, leads.config, same,
        fun other twin relative found => shared other twin.plan relative (getElem?_plans found)⟩
      rw [← leads.operations]
      exact query.chain.length_operations.symm
    · exact fun building later => stateOf_run_building env known found building

/-- Two branches of one query: the first is configured, enumerated, copied and built upon, the
second takes another operation. Beside them another query is opened. -/
def branches : List (Command Json) :=
  [.append 0 (.skip (.constant (.int 1))), .configure 1 ⟨.nested, true⟩, .iterateAll 2,
    .duplicate 2, .append 0 (.take (.constant (.int 2))),
    .append 3 (.take (.constant (.int 3))), .root unmapped {}]

theorem query_of_lineage_branches :
    let run := (Session.ofStore brokenStore unmapped {}).run plainDocuments branches
    ∃ query first other, run.1.queries[5]? = some query ∧ run.1.queries[0]? = some first ∧
      run.1.queries[6]? = some other ∧
      query.chain.operations = [.skip (.constant (.int 1)), .take (.constant (.int 3))] ∧
      query.config = ⟨.nested, true⟩ ∧ query.processors = first.processors ∧
      other.processors ≠ query.processors ∧ run.1.stateOf 2 = .faulted ∧
      (∀ command ∈ [(.iterateAll 2 : Command Json), .streamAll 5],
        command.starts ≠ some run.1.queries.length) ∧
      ((run.1.step plainDocuments (.duplicate 2)).session.run plainDocuments
        [.iterateAll 2, .streamAll 5]).1.stateOf run.1.queries.length = .unmaterialized := by
  intro run
  obtain ⟨-, -, inRun⟩ := query_of_lineage plainDocuments
  obtain ⟨-, each⟩ := inRun brokenStore unmapped {} branches
  have combined : ∃ query, run.1.queries[5]? = some query := ⟨_, rfl⟩
  have opened : ∃ first, run.1.queries[0]? = some first := ⟨_, rfl⟩
  have beside : ∃ other, run.1.queries[6]? = some other := ⟨_, rfl⟩
  have configured : ∃ parent, run.1.queries[2]? = some parent := ⟨_, rfl⟩
  obtain ⟨query, listed⟩ := combined
  obtain ⟨first, base⟩ := opened
  obtain ⟨other, known⟩ := beside
  obtain ⟨parent, found⟩ := configured
  have unstarted : ∀ command ∈ [(.iterateAll 2 : Command Json), .streamAll 5],
      command.starts ≠ some run.1.queries.length := by decide
  obtain ⟨⟨origin, root, derived, based, operations, -, -, config, same, shared⟩, -⟩ :=
    each 5 query listed
  obtain ⟨-, -, -, unmaterialized⟩ := each 2 parent found
  cases (show some _ = some origin from derived)
  cases (show some first = some root from base.symm.trans based)
  have apart : other.processors ≠ query.processors := fun one => by
    cases (shared 6 other _ known rfl).mp one
  exact ⟨query, first, other, listed, base, known, operations, config, same, apart, rfl, unstarted,
    unmaterialized .duplicate [.iterateAll 2, .streamAll 5] unstarted⟩

end Session
end DocQuery
