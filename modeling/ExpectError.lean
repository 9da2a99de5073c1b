import ExpectError.Annotate
import ExpectError.Arguments
import ExpectError.Checker.Basic
import ExpectError.Checker.Command
import ExpectError.Checker.Offsets
import ExpectError.Checker.Report
import ExpectError.Diagnostic
import ExpectError.Directive
import ExpectError.Files.FileTree
import ExpectError.Files.Pathname
import ExpectError.Grammar.Basic
import ExpectError.Grammar.Classes
import ExpectError.Grammar.Expressions
import ExpectError.Grammar.Markup
import ExpectError.Grammar.Modules
import ExpectError.Grammar.Parser
import ExpectError.Grammar.Patterns
import ExpectError.Grammar.Pieces
import ExpectError.Grammar.Recursion
import ExpectError.Grammar.Signatures
import ExpectError.Grammar.Statements
import ExpectError.Grammar.Types
import ExpectError.Insertion
import ExpectError.Issue
import ExpectError.Json.Double
import ExpectError.Json.Reader
import ExpectError.Json.Relaxed
import ExpectError.Json.Value
import ExpectError.Logging
import ExpectError.Main
import ExpectError.Outcome
import ExpectError.Passes
import ExpectError.Placement
import ExpectError.Project.Config
import ExpectError.Project.Discovery
import ExpectError.Project.Error
import ExpectError.Project.Glob
import ExpectError.Project.Loading
import ExpectError.Run
import ExpectError.Shell.Arithmetic
import ExpectError.Shell.Builtins
import ExpectError.Shell.CharClass
import ExpectError.Shell.Command
import ExpectError.Shell.Decimal
import ExpectError.Shell.Executable
import ExpectError.Shell.Expansion
import ExpectError.Shell.Interpreter
import ExpectError.Shell.Invocation
import ExpectError.Shell.Octets
import ExpectError.Shell.Pattern
import ExpectError.Shell.Printing
import ExpectError.Shell.Programs
import ExpectError.Shell.Programs.Awk.Running
import ExpectError.Shell.Programs.Awk.Script
import ExpectError.Shell.Programs.Awk.Value
import ExpectError.Shell.Programs.Files
import ExpectError.Shell.Programs.Find
import ExpectError.Shell.Programs.Grep
import ExpectError.Shell.Programs.Launching
import ExpectError.Shell.Programs.Lines
import ExpectError.Shell.Programs.Numbers
import ExpectError.Shell.Programs.Paths
import ExpectError.Shell.Programs.Sed.Editing
import ExpectError.Shell.Programs.Sed.Script
import ExpectError.Shell.Quote
import ExpectError.Shell.Regex
import ExpectError.Shell.Script
import ExpectError.Shell.State
import ExpectError.Shell.Streams
import ExpectError.Shell.Testing
import ExpectError.Shell.Word
import ExpectError.Shell.World
import ExpectError.SourceFile
import ExpectError.Terminal.Listing
import ExpectError.Terminal.Question
import ExpectError.Terminal.Reporter
import ExpectError.Terminal.Style
import ExpectError.Text.Alphabetic
import ExpectError.Text.Blank
import ExpectError.Text.Bytes
import ExpectError.Text.Fields
import ExpectError.Text.LineStarts
import ExpectError.Text.Lines
import ExpectError.Text.Numeric
import ExpectError.Text.Ranges
import ExpectError.Text.Utf8
import ExpectError.Token.Cursor
import ExpectError.Token.Kind
import ExpectError.Token.Scanner
import ExpectError.Tree.Arena
import ExpectError.Tree.Basic
import ExpectError.Tree.Kind
import ExpectError.Worker
import ExpectError.Proofs.Bytes
import ExpectError.Proofs.Insertions
import ExpectError.Proofs.Annotation
import ExpectError.Proofs.Issues
import ExpectError.Proofs.Lines
import ExpectError.Proofs.Matching
import ExpectError.Proofs.CommentedReading
import ExpectError.Proofs.LineAnnotation
import ExpectError.Proofs.DirectiveAbove
import ExpectError.Proofs.Behind
import ExpectError.Proofs.Ancestors
import ExpectError.Proofs.MarkupPlaces
import ExpectError.Proofs.AnnotatedReading
import ExpectError.Proofs.ChildBlocks
import ExpectError.Proofs.Spans
import ExpectError.Proofs.ReportedPositions
import ExpectError.Proofs.ReportHeaders
import ExpectError.Proofs.ReportLayout
import ExpectError.Proofs.BlankLines
import ExpectError.Proofs.AnnotatedTokens
import ExpectError.Proofs.HaltingProductions
import ExpectError.Proofs.ParserFrame
import ExpectError.Proofs.TokenCover
import ExpectError.Proofs.Leave
import ExpectError.Proofs.EncodedTexts
import ExpectError.Proofs.FileContents
import ExpectError.Proofs.ParallelFiles
import ExpectError.Proofs.ReportedFiles
import ExpectError.Proofs.GlobPatterns
import ExpectError.Proofs.PathNames
import ExpectError.Proofs.Walks
import ExpectError.Proofs.Discovery
import ExpectError.Proofs.ScannerSessions
import ExpectError.Proofs.ScannedTexts
import ExpectError.Proofs.CanonicalNames
import ExpectError.Proofs.LoadedBases
import ExpectError.Proofs.ConfigCycles
import ExpectError.Proofs.RebasedPaths
import ExpectError.Proofs.MergedOptions
import ExpectError.Proofs.LinearizedConfigs
import ExpectError.Proofs.CarriageReturns
import ExpectError.Proofs.GuardedPlaces
import ExpectError.Proofs.HoistedPlaces
import ExpectError.Proofs.LineEnds
import ExpectError.Proofs.Positions
import ExpectError.Proofs.RelaxedText
import ExpectError.Proofs.JsonTokens
import ExpectError.Proofs.JsonSpacing
import ExpectError.Proofs.RelaxedConfigs
import ExpectError.Proofs.ErrorOrder
import ExpectError.Proofs.Equations
import ExpectError.Proofs.TypeArguments
import ExpectError.Proofs.ChildProgress
import ExpectError.Proofs.TokenPlaces
import ExpectError.Proofs.OpenedFragments
import ExpectError.Proofs.OperatorChains
import ExpectError.Proofs.Groupings
import ExpectError.Proofs.ChainReading
import ExpectError.Proofs.CompletedSpecifiers
import ExpectError.Proofs.EscapeSequences
import ExpectError.Proofs.WrittenWords
import ExpectError.Proofs.CheckerCalls
import ExpectError.Proofs.SpelledMarks
import ExpectError.Proofs.AnnotatedChildren
import ExpectError.Proofs.MarkupBounds
