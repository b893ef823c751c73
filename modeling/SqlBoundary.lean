import SqlBoundary.Main
import SqlBoundary.Proofs.Composition
import SqlBoundary.Proofs.Coverage
import SqlBoundary.Proofs.EndTail
import SqlBoundary.Proofs.Excerpt
import SqlBoundary.Proofs.PackageBody
import SqlBoundary.Proofs.Sealed
import SqlBoundary.Proofs.StoredProgram
import SqlBoundary.ServerError
import SqlBoundary.Proofs.Reachable
import SqlBoundary.Proofs.Termination
import SqlBoundary.Proofs.Calls
import SqlBoundary.Proofs.Parens
import SqlBoundary.Proofs.Lookahead
import SqlBoundary.Proofs.Agreement
import SqlBoundary.Proofs.Faults
import SqlBoundary.Proofs.Members
import SqlBoundary.Proofs.Directives
import SqlBoundary.Proofs.Transactions
import SqlBoundary.Proofs.Pieces
import SqlBoundary.Proofs.Batches
import SqlBoundary.Proofs.FunctionCalls
import SqlBoundary.Proofs.Comments
import SqlBoundary.Proofs.CutOff
import SqlBoundary.Proofs.Folding
import SqlBoundary.Proofs.ClosingDelimiter
import SqlBoundary.Proofs.PrintedScript
import SqlBoundary.Proofs.ColumnNames
import SqlBoundary.Proofs.SettingsText
import SqlBoundary.Proofs.Units
import SqlBoundary.Proofs.QuotedText
import SqlBoundary.Proofs.DollarQuoted
import SqlBoundary.Proofs.Slices
import SqlBoundary.Proofs.ClauseStart
