import DocQuery.Operation

/-!
# Compilation rules

A rule lowers one or two kinds of operations to stages. A rule set gives the rule
for each kind that is registered; a later registration replaces an earlier one.
-/
namespace DocQuery

inductive Rule where
  | filter | select | orderBy | skip | take
  deriving DecidableEq, Repr

namespace Rule

def name : Rule → String
  | .filter => "WhereTranslator"
  | .select => "SelectTranslator"
  | .orderBy => "OrderByTranslator"
  | .skip => "SkipTranslator"
  | .take => "TakeTranslator"

/-- The kinds of operations a rule lowers. -/
def kinds : Rule → List OperationKind
  | .filter => [.filter]
  | .select => [.select]
  | .orderBy => [.orderBy, .orderByDescending]
  | .skip => [.skip]
  | .take => [.take]

end Rule

/-- The rule registered for each kind of operation. -/
abbrev RuleSet := OperationKind → Option Rule

namespace RuleSet

def empty : RuleSet := fun _ => none

def register (rules : RuleSet) (rule : Rule) : RuleSet := fun kind =>
  if kind ∈ rule.kinds then some rule else rules kind

def ofList (rules : List Rule) : RuleSet :=
  rules.foldl register empty

/-- Every kind of operation with its rule. -/
def standard : RuleSet :=
  ofList [.filter, .select, .orderBy, .skip, .take]

def supports (rules : RuleSet) (kind : OperationKind) : Bool :=
  (rules kind).isSome

end RuleSet
end DocQuery
