import DocQuery.Assoc

/-!
# Field mapping

What a member of an entity type is called in stored documents, and which entity
type its value has. A `FieldMapping` answers this question; a `MappingRegistry`
is a table of such answers, built one entity type at a time.
-/
namespace DocQuery

/-- A member known to a mapping: a stored name if it differs from the declared
one, and the entity type of its value if it has members of its own. -/
structure MappedMember where
  elementName : Option String := none
  nestedType : Option String := none
  deriving DecidableEq, Repr

namespace MappedMember

def wireName (mapped : MappedMember) (declared : String) : String :=
  mapped.elementName.getD declared

end MappedMember

/-- What is known about a member of an entity type. -/
abbrev FieldMapping := String → String → Option MappedMember

structure EntityMapping where
  entityType : String
  members : Assoc MappedMember := []
  deriving DecidableEq, Repr

namespace EntityMapping

/-- Adds a member, or replaces what was known about it. -/
def withMember (m : EntityMapping) (name : String) (member : MappedMember) : EntityMapping :=
  { m with members := m.members.insert name member }

/-- Adds members that keep their declared names. -/
def withMembers (m : EntityMapping) (names : List String) : EntityMapping :=
  names.foldl (fun m name => m.withMember name {}) m

def size (m : EntityMapping) : Nat :=
  m.members.length

end EntityMapping

structure MappingRegistry where
  entities : Assoc (Assoc MappedMember) := []
  deriving DecidableEq, Repr

namespace MappingRegistry

/-- Registers a mapping in place of an earlier one of its type. -/
def register (registry : MappingRegistry) (mapping : EntityMapping) : MappingRegistry :=
  ⟨registry.entities.insert mapping.entityType mapping.members⟩

def contains (registry : MappingRegistry) (entityType : String) : Bool :=
  registry.entities.has entityType

def resolve (registry : MappingRegistry) : FieldMapping := fun entityType member =>
  (registry.entities.get? entityType).bind (·.get? member)

end MappingRegistry
end DocQuery
