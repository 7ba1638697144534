import DocQuery.Document.Printer
import DocQuery.Query.Processor

/-!
# Processors on documents

Processors that are described by data. They look at the document of an entity and
may assign one of its members; the entity is then decoded again. A processor that
fails leaves the entity as it was.
-/
namespace DocQuery

/-- A processor described by data. -/
inductive DocumentProcessor where
  /-- takes a snapshot of entities that have a key -/
  | tracking
  /-- records the document of the entity -/
  | record (name : String)
  /-- fails if a member has a value -/
  | failIf (name field : String) (equals : Json) (reason : String)
  /-- assigns a member -/
  | set (name field : String) (value : Json)
  /-- adds to an integer member -/
  | add (name field : String) (amount : Int)
  /-- appends to a string member -/
  | append (name field : String) (text : String)
  deriving Repr

namespace DocumentProcessor

def name : DocumentProcessor → String
  | .tracking => "change-tracking"
  | .record name => name
  | .failIf name _ _ _ => name
  | .set name _ _ => name
  | .add name _ _ => name
  | .append name _ _ => name

/-- A document with a member assigned; null becomes an object. -/
def assign? (document : Json) (field : String) (value : Json) : Option Json :=
  match document with
  | .obj members => some (.obj (Assoc.insert members field value))
  | .null => some (.obj [(field, value)])
  | _ => none

def assigned {τ : Type} (type : EntityType τ) (entity : τ) (name field : String) (value : Json) :
    Outcome τ :=
  match (assign? (type.encode entity) field value).map type.decode with
  | some (.ok changed) => { entity := changed }
  | _ => { entity, failure := some ⟨name, "decode"⟩ }

/-- The sum of an integer member and an amount, within a signed word. -/
def sum? (old : Option Json) (amount : Int) : Option Int := do
  let value ← old.bind Json.int?
  let sum := value + amount
  if FitsSigned value ∧ FitsSigned sum then some sum else none

def run {τ : Type} (type : EntityType τ) (processor : DocumentProcessor) (entity : τ) :
    Outcome τ :=
  let document := type.encode entity
  match processor with
  | .tracking =>
    match type.key entity with
    | some key => { entity, effects := [.track ⟨type.name, key, document⟩] }
    | none => { entity }
  | .record name => { entity, effects := [.record (name ++ ":" ++ document.render)] }
  | .failIf name field expected reason =>
    if ((document.member? field).getD .null).equal expected then
      { entity, failure := some ⟨name, reason⟩ }
    else { entity }
  | .set name field value => assigned type entity name field value
  | .add name field amount =>
    match sum? (document.member? field) amount with
    | some sum => assigned type entity name field (.num (.int sum))
    | none => { entity, failure := some ⟨name, "not an integer"⟩ }
  | .append name field text =>
    let old := match document.member? field with
      | some (.str old) => old
      | _ => ""
    assigned type entity name field (.str (old ++ text))

def toProcessor {τ : Type} (type : EntityType τ) (processor : DocumentProcessor) : Processor τ :=
  ⟨processor.name, processor.run type⟩

end DocumentProcessor
end DocQuery
