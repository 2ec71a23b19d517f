import RowGraph.Text.Fold
import RowGraph.Text.Words
import RowGraph.Text.Quoted
import RowGraph.Binary64.Decimal
import RowGraph.Value.Key
import RowGraph.Row
import RowGraph.Expr
import RowGraph.Condition.Basic
import RowGraph.Sql.Flavor
import RowGraph.Error.Basic
import RowGraph.Condition.Eval
import RowGraph.Schema.Registry
import RowGraph.Statement.Basic
import RowGraph.Sql.Formatted
import RowGraph.Repository.Basic
import RowGraph.Proofs.Compilation.Meaning
import RowGraph.Proofs.Schema.Columns
import RowGraph.Proofs.Schema.History
import RowGraph.Proofs.Compilation.Columns
import RowGraph.Proofs.Statement.Link
import RowGraph.Proofs.Statement.Reachable
import RowGraph.Proofs.Schema.Relations
import RowGraph.Proofs.Statement.LinkKeys
import RowGraph.Proofs.Statement.LinkPairing
import RowGraph.Proofs.Row
import RowGraph.Proofs.Graph.Groups
import RowGraph.Proofs.Graph.Hydration
import RowGraph.Proofs.Graph.Collections
import RowGraph.Proofs.Repository.Written
import RowGraph.Proofs.Repository.Table
import RowGraph.Proofs.Statement.Batch
import RowGraph.Proofs.Repository.Tracking
import RowGraph.Proofs.Sql.Placeholders
import RowGraph.Proofs.Compilation.Verdict
import RowGraph.Proofs.Statement.Scoping
import RowGraph.Proofs.Sql.Unambiguous
import RowGraph.Proofs.Sql.Escapes
import RowGraph.Proofs.Compilation.Text
import RowGraph.Proofs.Graph.RoundTrip
import RowGraph.Proofs.Graph.Walk
import RowGraph.Proofs.Graph.Projection
import RowGraph.Proofs.Repository.InPlace
import RowGraph.Proofs.Schema.Requests
import RowGraph.Proofs.Schema.Bindings
import RowGraph.Proofs.Schema.Names
import RowGraph.Proofs.Schema.BackReferences
import RowGraph.Proofs.Statement.DefaultKeys
import RowGraph.Proofs.Statement.FilterOrder
import RowGraph.Proofs.Statement.Built
import RowGraph.Proofs.Sql.Refusals
import RowGraph.Proofs.Sql.Context
import RowGraph.Proofs.Schema.Reachability
import RowGraph.Proofs.Schema.RegistrationOrder
import RowGraph.Proofs.Compilation.Converse
import RowGraph.Proofs.Compilation.Language
import RowGraph.Proofs.Compilation.NormalForm
import RowGraph.Proofs.Schema.Failures
import RowGraph.Proofs.Statement.JoinSides
import RowGraph.Proofs.Schema.Mistakes
import RowGraph.Proofs.Statement.UpdateBatch
import RowGraph.Proofs.Sql.Tuples
import RowGraph.Proofs.Graph.RootKeys
import RowGraph.Proofs.Graph.RowChange
import RowGraph.Proofs.Graph.Widths
import RowGraph.Proofs.Graph.Repetition
import RowGraph.Proofs.Graph.Qualified
import RowGraph.Proofs.Compilation.Respelling
import RowGraph.Proofs.Statement.KeySpelling
import RowGraph.Proofs.Repository.ByKey
import RowGraph.Proofs.Condition.Support
import RowGraph.Proofs.Schema.KeyTypes
import RowGraph.Proofs.Sql.TablePrefix
import RowGraph.Proofs.Error.Context
import RowGraph.Proofs.Loop
import RowGraph.Proofs.Statement.Registration
import RowGraph.Proofs.Schema.Lookups
import RowGraph.Proofs.KeyOrder
import RowGraph.Proofs.Statement.Filters
import RowGraph.Proofs.RowHistory
