import MiniC.Command
import MiniC.Compilation
import MiniC.Diagnostic.Basic
import MiniC.Diagnostic.Code
import MiniC.Diagnostic.Explanation
import MiniC.Diagnostic.Report
import MiniC.Directory
import MiniC.Grammar.Cursor
import MiniC.Grammar.Error
import MiniC.Grammar.Expression
import MiniC.Grammar.Program
import MiniC.LineIndex
import MiniC.Main
import MiniC.NameMap
import MiniC.Path
import MiniC.Proofs.Command
import MiniC.Proofs.Command.Colors
import MiniC.Proofs.Compilation.Layout
import MiniC.Proofs.Compilation.Phases
import MiniC.Proofs.Compilation.Signature
import MiniC.Proofs.Diagnostic.Report
import MiniC.Proofs.Except
import MiniC.Proofs.Grammar.Completeness
import MiniC.Proofs.Grammar.Completing
import MiniC.Proofs.Grammar.Context
import MiniC.Proofs.Grammar.Cursor
import MiniC.Proofs.Grammar.Derivation
import MiniC.Proofs.Grammar.Earliest
import MiniC.Proofs.Grammar.Endless
import MiniC.Proofs.Grammar.Extents
import MiniC.Proofs.Grammar.FirstOperand
import MiniC.Proofs.Grammar.Layout
import MiniC.Proofs.Grammar.LexicalErrors
import MiniC.Proofs.Grammar.MissingSemicolon
import MiniC.Proofs.Grammar.Movement
import MiniC.Proofs.Grammar.Operands
import MiniC.Proofs.Grammar.Parting
import MiniC.Proofs.Grammar.Reading
import MiniC.Proofs.Grammar.ReadingOperands
import MiniC.Proofs.Grammar.ReadingPrograms
import MiniC.Proofs.Grammar.Rendering
import MiniC.Proofs.Grammar.Sentence
import MiniC.Proofs.Grammar.Soundness
import MiniC.Proofs.Grammar.SourceSpans
import MiniC.Proofs.Grammar.Step
import MiniC.Proofs.Grammar.Stopping
import MiniC.Proofs.Grammar.Turns
import MiniC.Proofs.LineIndex
import MiniC.Proofs.LineIndex.Boundaries
import MiniC.Proofs.LineIndex.Inversions
import MiniC.Proofs.LineIndex.Offsets
import MiniC.Proofs.NameMap
import MiniC.Proofs.Scope.Analysis
import MiniC.Proofs.Scope.Binding
import MiniC.Proofs.Scope.Bound
import MiniC.Proofs.Scope.Calls
import MiniC.Proofs.Scope.Checked
import MiniC.Proofs.Scope.InRange
import MiniC.Proofs.Scope.Declared
import MiniC.Proofs.Scope.Declaring
import MiniC.Proofs.Scope.Entering
import MiniC.Proofs.Scope.Faults
import MiniC.Proofs.Scope.Finding
import MiniC.Proofs.Scope.Frame
import MiniC.Proofs.Scope.Functions
import MiniC.Proofs.Scope.Handles
import MiniC.Proofs.Scope.Headings
import MiniC.Proofs.Scope.Isolation
import MiniC.Proofs.Scope.Known
import MiniC.Proofs.Scope.Locals
import MiniC.Proofs.Scope.Lookup
import MiniC.Proofs.Scope.Meaning
import MiniC.Proofs.Scope.Overwriting
import MiniC.Proofs.Scope.Refused
import MiniC.Proofs.Scope.Reordering
import MiniC.Proofs.Scope.Reporting
import MiniC.Proofs.Scope.Resolution
import MiniC.Proofs.Scope.Slot
import MiniC.Proofs.Scope.Spans
import MiniC.Proofs.Scope.Table
import MiniC.Proofs.Scope.Variables
import MiniC.Proofs.Scope.Verdict
import MiniC.Proofs.Span
import MiniC.Proofs.Span.Merging
import MiniC.Proofs.Token.EndMark
import MiniC.Proofs.Token.Lexeme
import MiniC.Proofs.Token.Lines
import MiniC.Proofs.Token.Numerals
import MiniC.Proofs.Token.Order
import MiniC.Proofs.Token.Spelling
import MiniC.Proofs.Token.Tiling
import MiniC.Proofs.Token.Trivia
import MiniC.Proofs.Tree.Events
import MiniC.Proofs.Tree.Nesting
import MiniC.Proofs.Tree.Relabel
import MiniC.Proofs.Tree.Replacing
import MiniC.Proofs.Tree.Simulation
import MiniC.Proofs.Tree.Visited
import MiniC.Proofs.Tree.Walk
import MiniC.Scope.Analysis
import MiniC.Scope.Declare
import MiniC.Scope.Error
import MiniC.Scope.Listing
import MiniC.Scope.Resolve
import MiniC.Scope.Table
import MiniC.Span
import MiniC.Text.Formless
import MiniC.Text.Quoted
import MiniC.Token
import MiniC.Token.Lexer
import MiniC.Tree.Basic
import MiniC.Tree.Describe
import MiniC.Tree.Outline
import MiniC.Tree.Walk
