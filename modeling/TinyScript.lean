import TinyScript.CommandLine.Arguments
import TinyScript.CommandLine.FileTree
import TinyScript.CommandLine.Outcome
import TinyScript.Main
import TinyScript.Program.Basic
import TinyScript.Program.Dump
import TinyScript.Program.Height
import TinyScript.Program.Precedence
import TinyScript.Proofs.Avoiding
import TinyScript.Proofs.Brackets
import TinyScript.Proofs.Erasure
import TinyScript.Proofs.Grouping
import TinyScript.Proofs.Heights
import TinyScript.Proofs.Language
import TinyScript.Proofs.Levels
import TinyScript.Proofs.LexicalTokens
import TinyScript.Proofs.Lexing
import TinyScript.Proofs.LiteralValues
import TinyScript.Proofs.Paths
import TinyScript.Proofs.Productions
import TinyScript.Proofs.ReadingSound
import TinyScript.Proofs.Recognizing
import TinyScript.Proofs.Rendering
import TinyScript.Proofs.Restoring
import TinyScript.Proofs.RestoringExpressions
import TinyScript.Proofs.RestoringStatements
import TinyScript.Proofs.SafeEvaluation
import TinyScript.Proofs.SafeRuns
import TinyScript.Proofs.Shape
import TinyScript.Proofs.Spelling
import TinyScript.Proofs.Terminals
import TinyScript.Reading.Frontier
import TinyScript.Reading.Grammar
import TinyScript.Reading.Lexeme
import TinyScript.Reading.Nesting
import TinyScript.Reading.Parse
import TinyScript.Reading.Recognizer
import TinyScript.Report.Diagnostic
import TinyScript.Report.Document
import TinyScript.Report.Record
import TinyScript.Report.WrittenNumber
import TinyScript.Run.Environment
import TinyScript.Run.EvalError
import TinyScript.Run.Evaluate
import TinyScript.Run.Event
import TinyScript.Run.HostFunction
import TinyScript.Run.Sink
import TinyScript.Run.State
import TinyScript.Source.Basic
import TinyScript.Source.Cursor
import TinyScript.Source.Span
import TinyScript.Text.Printable
import TinyScript.Value.Basic
import TinyScript.Value.Decimal
import TinyScript.Value.Literal
import TinyScript.Value.Numeral
import TinyScript.Value.Operator
import TinyScript.Proofs.Lockstep
import TinyScript.Proofs.Simulation
import TinyScript.Proofs.Budgets
import TinyScript.Proofs.StepLimit
import TinyScript.Proofs.Semantics
import TinyScript.Proofs.Adequacy
import TinyScript.Proofs.Lines
import TinyScript.Proofs.Tracing
import TinyScript.Proofs.Places
import TinyScript.Proofs.ErrorPlaces
import TinyScript.Proofs.Layout
import TinyScript.Proofs.ReadingLayout
import TinyScript.Proofs.OpenBrackets
import TinyScript.Proofs.Blame
import TinyScript.Proofs.AdequateBlame
import TinyScript.Proofs.DepthCounter
import TinyScript.Proofs.VisitedNodes
import TinyScript.Proofs.Sessions
import TinyScript.Proofs.Deeds
import TinyScript.Proofs.Replaying
import TinyScript.Proofs.Assignments
import TinyScript.Proofs.Noninterference
import TinyScript.Proofs.FailingSinks
import TinyScript.Proofs.Reformatting
import TinyScript.Proofs.TallNodes
import TinyScript.Proofs.Occupying
import TinyScript.Proofs.Relocating
import TinyScript.Proofs.Concatenation
import TinyScript.Proofs.ParsingExpressions
import TinyScript.Proofs.Attempts
import TinyScript.Proofs.Derivations
import TinyScript.Proofs.ViablePrefixes
import TinyScript.Proofs.ExpressionCost
import TinyScript.Proofs.IntegerExpressions
import TinyScript.Proofs.FloatOrder
import TinyScript.Proofs.Promotion
import TinyScript.Proofs.Comparisons
import TinyScript.Proofs.Coupling
import TinyScript.Proofs.Yielding
import TinyScript.Proofs.LoopUnrolling
import TinyScript.Proofs.LineIndex
import TinyScript.Proofs.ReadingRecords
import TinyScript.Proofs.LiteralScripts
import TinyScript.Proofs.ReportedPlaces
import TinyScript.Proofs.BlamedNodes
import TinyScript.Proofs.Carets
import TinyScript.Proofs.MergedRanges
import TinyScript.Proofs.PrecedenceClimbing
import TinyScript.Proofs.LoggedDeeds
import TinyScript.Proofs.LoopRuns
import TinyScript.Proofs.LoggedLoops
import TinyScript.Proofs.FaithfulLog
