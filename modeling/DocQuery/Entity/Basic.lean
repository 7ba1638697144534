import DocQuery.Document.Json

/-!
# Entity types

An entity type turns stored documents into entities and entities into documents.
An entity may have a key, under which changes to it are tracked.
-/
namespace DocQuery

/-- How entities of a type are decoded, encoded and identified. Decoding fails
with the words for what is wrong. -/
structure EntityType (τ : Type) where
  name : String
  decode : Json → Except String τ
  encode : τ → Json
  key : τ → Option String

end DocQuery
