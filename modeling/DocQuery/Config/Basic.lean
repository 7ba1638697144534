import DocQuery.Document.Json

/-!
# Query configuration

How connectives are laid out in `$match` stages, and whether compiled pipelines
are logged at a raised severity. Every setting has a default.
-/
namespace DocQuery

/-- The layout of connectives: a two-element array for each, one array for a chain
of the same connective, or a chain of conjunctions merged into one document where
that is possible. -/
inductive Flattening where
  | nested | flatten | merge
  deriving DecidableEq, Repr

namespace Flattening

def name : Flattening → String
  | .nested => "nested"
  | .flatten => "flatten"
  | .merge => "merge"

def ofName? (name : String) : Option Flattening :=
  [Flattening.nested, .flatten, .merge].find? (·.name = name)

end Flattening

structure Config where
  flattening : Flattening := .flatten
  logPipelines : Bool := false
  deriving DecidableEq, Repr

namespace Config

def document (config : Config) : Json :=
  .obj [("connective_flattening", .str config.flattening.name),
    ("log_pipelines", .bool config.logPipelines)]

end Config
end DocQuery
