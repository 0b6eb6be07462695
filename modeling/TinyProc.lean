import TinyProc.Text.Decimal
import TinyProc.Text.Blank
import TinyProc.Text.Shown
import TinyProc.Text.Quoted
import TinyProc.Diagnostic
import TinyProc.Word
import TinyProc.Token.Basic
import TinyProc.Token.ScanError
import TinyProc.Token.Scanner
import TinyProc.Fault
import TinyProc.Operator
import TinyProc.Syntax.Basic
import TinyProc.Syntax.Error
import TinyProc.Journal.Rendering
import TinyProc.Journal.Basic
import TinyProc.Syntax.Parser
import TinyProc.Syntax.Expression
import TinyProc.Syntax.Statement
import TinyProc.Syntax.Program
import TinyProc.Environment.Bindings
import TinyProc.Environment.Basic
import TinyProc.Console
import TinyProc.Run.Basic
import TinyProc.Run.Evaluation
import TinyProc.Interpreter
import TinyProc.CommandLine
import TinyProc.Main
import TinyProc.Proofs.Environment.TwoLevels
import TinyProc.Proofs.Lines.Trees
import TinyProc.Proofs.Run.Congruence
import TinyProc.Proofs.Run.Frame
import TinyProc.Proofs.Run.Reference
import TinyProc.Proofs.Run.Refinement
import TinyProc.Proofs.Syntax.Grammar
import TinyProc.Proofs.Syntax.Recognition.Basic
import TinyProc.Proofs.Syntax.Recognition.Lists
import TinyProc.Proofs.Syntax.Recognition.Expression
import TinyProc.Proofs.Syntax.Recognition.Statement
import TinyProc.Proofs.Syntax.Recognition.Program
import TinyProc.Proofs.Syntax.Completeness.Lists
import TinyProc.Proofs.Syntax.Completeness.Expression
import TinyProc.Proofs.Syntax.Completeness.Statement
import TinyProc.Proofs.Syntax.Completeness.Program
import TinyProc.Proofs.Syntax.Attachment
import TinyProc.Proofs.Syntax.Acceptance
import TinyProc.Proofs.Syntax.ViablePrefix
import TinyProc.Proofs.Run.Overflow
import TinyProc.Proofs.Token.Lexis
import TinyProc.Proofs.Token.Scanning
import TinyProc.Proofs.Token.Pulling
import TinyProc.Proofs.Syntax.Printing
import TinyProc.Proofs.Syntax.Nesting
import TinyProc.Proofs.Syntax.RoundTrip
import TinyProc.Proofs.Run.Lockstep
import TinyProc.Proofs.Run.Alike
import TinyProc.Proofs.Run.LocalNames
import TinyProc.Proofs.Run.CallLimit
import TinyProc.Proofs.Syntax.Budget
import TinyProc.Proofs.Syntax.Composition
import TinyProc.Proofs.Syntax.Constructs
import TinyProc.Proofs.Token.Rendering
import TinyProc.Proofs.Syntax.Height
import TinyProc.Proofs.Lines.Parsing
import TinyProc.Proofs.Lines.Running
import TinyProc.Proofs.Lines.Layout
import TinyProc.Proofs.Lines.Failures
import TinyProc.Proofs.Run.Termination
import TinyProc.Proofs.Run.Composition
import TinyProc.Proofs.Run.Entries
import TinyProc.Proofs.Run.Succession
import TinyProc.Proofs.Environment.Stack
import TinyProc.Proofs.Run.Input
import TinyProc.Proofs.Run.Sinks
import TinyProc.Proofs.Run.Expressions
import TinyProc.Proofs.Syntax.Lookahead
import TinyProc.Proofs.Literals
import TinyProc.Proofs.Run.ReadBack
import TinyProc.Proofs.Run.Registration
import TinyProc.Proofs.Syntax.Declarations
import TinyProc.Proofs.Syntax.Separation
import TinyProc.Proofs.Run.AttachedReads
import TinyProc.Proofs.Run.CallScopes
import TinyProc.Proofs.Run.Undefined
