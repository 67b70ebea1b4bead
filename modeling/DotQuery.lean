import DotQuery.Main
import DotQuery.Session
import DotQuery.Proofs.Query.Pieces
import DotQuery.Proofs.Query.Composition
import DotQuery.Proofs.Query.Cache
import DotQuery.Proofs.Session.Queries
import DotQuery.Proofs.Session.Caches
import DotQuery.Proofs.Predicate.Terms
import DotQuery.Proofs.Predicate.Canonical
import DotQuery.Proofs.CommandLine.Lines
import DotQuery.Proofs.Predicate.RoundTrip
import DotQuery.Proofs.Report.LineFeeds
import DotQuery.Proofs.Query.Laziness
import DotQuery.Proofs.Query.PlainPath
import DotQuery.Proofs.Query.Selection
import DotQuery.Proofs.Json.DistinctNames
import DotQuery.Proofs.Json.Reordered
import DotQuery.Proofs.Query.FieldOrder
import DotQuery.Proofs.Query.Separators
import DotQuery.Proofs.Query.Compilation
import DotQuery.Proofs.Predicate.Tokenisation
import DotQuery.Proofs.Predicate.Reading
import DotQuery.Proofs.Predicate.LeftFold
import DotQuery.Proofs.Predicate.Joining
import DotQuery.Proofs.Query.FieldPath
import DotQuery.Proofs.Query.Projections
import DotQuery.Proofs.Text.Fields
import DotQuery.Proofs.Query.Printing
import DotQuery.Proofs.Query.NamedFilter
import DotQuery.Proofs.Text.Lines
import DotQuery.Proofs.Block.DirectiveForm
import DotQuery.Proofs.Block.Reading
import DotQuery.Proofs.Block.Outcome
import DotQuery.Proofs.Block.FormOrder
import DotQuery.Proofs.Block.Repeated
import DotQuery.Proofs.Template.Filling
import DotQuery.Proofs.Document.BlockFile
import DotQuery.Proofs.Double.Order
import DotQuery.Proofs.Predicate.Comparison
import DotQuery.Proofs.Double.Decimal
import DotQuery.Proofs.Double.Literal
import DotQuery.Proofs.Loose.DecimalForm
import DotQuery.Proofs.Double.Appending
import DotQuery.Proofs.Double.Notation
import DotQuery.Proofs.Loose.Coherence
import DotQuery.Proofs.Loose.Spelling
import DotQuery.Proofs.Query.Indexing
import DotQuery.Proofs.Query.History
import DotQuery.Proofs.Query.Explanation
import DotQuery.Proofs.Config.Directives
import DotQuery.Proofs.Config.Refusals
import DotQuery.Proofs.Loose.Nesting
import DotQuery.Proofs.Block.Lexing
