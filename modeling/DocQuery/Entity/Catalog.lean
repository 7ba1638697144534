import DocQuery.Entity.Basic
import DocQuery.Entity.Record

/-!
# A catalogue of entity types

Users, orders and books are records; an entity of the type `Doc` is any document.
An entity is held as its encoded document. Orders have their `Id` as key, and so
has a `Doc` that is an object with a string of that name.
-/
namespace DocQuery.Catalog

/-- Entities of a schema, held as their encoded documents. -/
def recordType (name : String) (schema : Record.Schema) (key : Json → Option String) :
    EntityType Json where
  name := name
  decode document := (Record.decoder schema document).mapError Record.Fault.message
  encode := id
  key := key

/-- The string in the member `Id`. -/
def identity (document : Json) : Option String :=
  match document.member? "Id" with
  | some (.str id) => some id
  | _ => none

def user : EntityType Json :=
  recordType "User"
    (.record "User" [("Id", .text), ("Name", .text), ("Age", .integer), ("Active", .flag)] [])
    fun _ => none

def order : EntityType Json :=
  recordType "Order"
    (.record "Order" [("Id", .text), ("Total", .integer), ("Status", .text)]
      [("Status", .str "")])
    identity

def book : EntityType Json :=
  recordType "Book"
    (.record "Book"
      [("Id", .text), ("Title", .text), ("Year", .integer),
        ("Author", .optional (.record "Author" [("Name", .text)] []))]
      [("Author", .null)])
    fun _ => none

def doc : EntityType Json where
  name := "Doc"
  decode := .ok
  encode := id
  key := identity

def ofName? (name : String) : Option (EntityType Json) :=
  [user, order, book, doc].find? (·.name = name)

end DocQuery.Catalog
