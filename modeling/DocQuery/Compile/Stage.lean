import DocQuery.Document.Printer

/-!
# Pipelines

A stage is an operator with a body, and a pipeline is a sequence of stages. Their
document form is what a collection is asked with; its text is the stable form of
a query.
-/
namespace DocQuery

/-- One aggregation stage. -/
structure Stage where
  operator : String
  body : Json
  deriving Repr

/-- A sequence of stages, run from the first to the last. -/
abbrev Pipeline := List Stage

namespace Stage

def document (stage : Stage) : Json :=
  .obj [(stage.operator, stage.body)]

end Stage

namespace Pipeline

def document (pipeline : Pipeline) : Json :=
  .arr (pipeline.map Stage.document)

def queryText (pipeline : Pipeline) : String :=
  (document pipeline).render

end Pipeline
end DocQuery
