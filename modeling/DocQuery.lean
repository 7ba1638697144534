import DocQuery.Compile.Build
import DocQuery.Config.Reader
import DocQuery.Document.Reader
import DocQuery.Entity.Catalog
import DocQuery.Log.Logger
import DocQuery.Proofs.Condition.Meaning
import DocQuery.Query.DocumentProcessor
import DocQuery.Query.Session
import DocQuery.Proofs.Computed.Value
import DocQuery.Proofs.Document.Paths
import DocQuery.Proofs.Computed.Selection
import DocQuery.Proofs.Scope.Projected
import DocQuery.Proofs.Compile.Layout
import DocQuery.Proofs.Query.Invocations
import DocQuery.Proofs.Query.Lifecycle
import DocQuery.Proofs.Document.Numbers
import DocQuery.Proofs.Document.SortOrder
import DocQuery.Proofs.Computed.Contexts
import DocQuery.Proofs.Compile.Runs
import DocQuery.Proofs.Compile.Stages
import DocQuery.Proofs.Query.SharedChain
import DocQuery.Proofs.Query.Accounting
import DocQuery.Proofs.Query.Isolation
import DocQuery.Proofs.Query.Tracking
import DocQuery.Proofs.Query.Lineage
import DocQuery.Proofs.Query.Completion
import DocQuery.Proofs.Query.Noninterference
import DocQuery.Proofs.Document.NaturalOrder
import DocQuery.Proofs.Collection.Sorting
import DocQuery.Proofs.Collection.SortChain
import DocQuery.Proofs.Expr.Operands
import DocQuery.Proofs.Condition.Grammar
import DocQuery.Proofs.Computed.Grammar
import DocQuery.Proofs.Computed.OnePass
import DocQuery.Proofs.Compile.Regrouping
import DocQuery.Proofs.Scope.Composition
import DocQuery.Proofs.Condition.Comparisons
import DocQuery.Proofs.Condition.Shape
import DocQuery.Proofs.Collection.Paging
import DocQuery.Proofs.Text.FixedWidth
import DocQuery.Proofs.Time.Calendar
import DocQuery.Proofs.Collection.Inclusion
import DocQuery.Proofs.Time.Chronology
import DocQuery.Proofs.Document.ReadBack
import DocQuery.Proofs.Log.CanonicalLine
