import TraceGraph.Number.Rounding
import TraceGraph.Number.Binary
import TraceGraph.Number.Shortest
import TraceGraph.Number.Layout
import TraceGraph.Number.Reading
import TraceGraph.Text.CharClass
import TraceGraph.Text.WordChar
import TraceGraph.Text.Unprintable
import TraceGraph.Text.Quoted
import TraceGraph.Literal
import TraceGraph.Operator
import TraceGraph.Token
import TraceGraph.Fault
import TraceGraph.Token.Lexer
import TraceGraph.Expr
import TraceGraph.Expr.Printer
import TraceGraph.Stmt
import TraceGraph.Stmt.Printer
import TraceGraph.Stmt.Lines
import TraceGraph.Parsed
import TraceGraph.Expr.Parser
import TraceGraph.Stmt.Parser
import TraceGraph.Env
import TraceGraph.Expr.Fold
import TraceGraph.Stmt.Fold
import TraceGraph.Env.Shelf
import TraceGraph.NameTable
import TraceGraph.Json
import TraceGraph.Json.Writer
import TraceGraph.Json.Number
import TraceGraph.Json.Reader
import TraceGraph.Arguments
import TraceGraph.Settings
import TraceGraph.Graph
import TraceGraph.LineSet
import TraceGraph.Classification
import TraceGraph.Graph.Label
import TraceGraph.Graph.Segment
import TraceGraph.Graph.Builder
import TraceGraph.Graph.Indexed
import TraceGraph.Graph.Document
import TraceGraph.Graph.Dot
import TraceGraph.Analysis
import TraceGraph.CommandLine
import TraceGraph.CommandLine.Words
import TraceGraph.Main
import TraceGraph.Proofs.Number.Bits
import TraceGraph.Proofs.Number.Nearest
import TraceGraph.Proofs.Number.Shortest
import TraceGraph.Proofs.Number.Written
import TraceGraph.Proofs.Token.Lexing
import TraceGraph.Proofs.Outcome
import TraceGraph.Proofs.Expr.Printed
import TraceGraph.Proofs.Expr.Reading
import TraceGraph.Proofs.Expr.Grammar
import TraceGraph.Proofs.Expr.RoundTrip
import TraceGraph.Proofs.Stmt.Printed
import TraceGraph.Proofs.Stmt.Reading
import TraceGraph.Proofs.Stmt.Grammar
import TraceGraph.Proofs.Stmt.Relined
import TraceGraph.Proofs.Stmt.RoundTrip
import TraceGraph.Proofs.Stmt.Folding
import TraceGraph.Proofs.Classification.OnePass
import TraceGraph.Proofs.Graph.Segmenting
import TraceGraph.Proofs.Graph.Execution
import TraceGraph.Proofs.Graph.Numbering
import TraceGraph.Proofs.Graph.Wiring
import TraceGraph.Proofs.Graph.Adequacy
import TraceGraph.Proofs.Stmt.Scope
import TraceGraph.Proofs.Stmt.Derivation
import TraceGraph.Proofs.Stmt.Instantiation
import TraceGraph.Proofs.Expr.Evaluation
import TraceGraph.Proofs.Stmt.StoreRun
import TraceGraph.Proofs.Classification.Soundness
import TraceGraph.Proofs.Graph.Parts
import TraceGraph.Proofs.Stmt.Resubstitution
import TraceGraph.Proofs.Graph.Lockstep
import TraceGraph.Proofs.Analysis.Options
import TraceGraph.Proofs.Classification.Visits
import TraceGraph.Proofs.Classification.Walks
import TraceGraph.Proofs.Classification.Accounting
import TraceGraph.Proofs.Analysis.Highlighting
import TraceGraph.Proofs.Expr.Faithful
import TraceGraph.Proofs.Stmt.Bindings
import TraceGraph.Proofs.Stmt.Meaning
import TraceGraph.Proofs.Stmt.NormalForm
import TraceGraph.Proofs.Stmt.Compound
import TraceGraph.Proofs.Expr.Moving
import TraceGraph.Proofs.Stmt.Moving
import TraceGraph.Proofs.Stmt.MovedFolding
import TraceGraph.Proofs.Classification.Moving
import TraceGraph.Proofs.Graph.Moving
import TraceGraph.Proofs.Analysis.Reformatting
import TraceGraph.Proofs.Stmt.Rewriting
import TraceGraph.Proofs.Stmt.Borrowing
import TraceGraph.Proofs.Graph.Refusal
import TraceGraph.Proofs.Graph.Discipline
import TraceGraph.Proofs.Token.Munch
import TraceGraph.Proofs.Stmt.SourceLines
import TraceGraph.Proofs.Graph.Captions
import TraceGraph.Proofs.Graph.Positions
import TraceGraph.Proofs.Json.Distinct
import TraceGraph.Proofs.Graph.Lossless
import TraceGraph.Proofs.Graph.Renaming
import TraceGraph.Proofs.Env.Sharing
import TraceGraph.Proofs.Script
import TraceGraph.Proofs.Stmt.Calls
import TraceGraph.Proofs.Stmt.Progress
