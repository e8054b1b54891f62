import Calculator.Command.Arguments
import Calculator.Command.Lines
import Calculator.Command.Report
import Calculator.Command.Response
import Calculator.Expr
import Calculator.Expr.Infix
import Calculator.Expr.Levels
import Calculator.Grammar
import Calculator.Machine
import Calculator.Operator
import Calculator.Parser
import Calculator.Session
import Calculator.Text.Blank
import Calculator.Text.Decimal
import Calculator.Token
import Calculator.Token.Cursor
import Calculator.Token.Scanner
import Calculator.Token.Stream
import Calculator.Word
import Calculator.Main
import Calculator.Proofs.Grammar.Standing
import Calculator.Proofs.Parser.Soundness
import Calculator.Proofs.Parser.Completeness
import Calculator.Proofs.Parser.Acceptance
import Calculator.Proofs.Parser.Refusal
import Calculator.Proofs.Word.Exactness
import Calculator.Proofs.Evaluation.Exactness
import Calculator.Proofs.Evaluation.Trace
import Calculator.Proofs.Grammar.Repetition
import Calculator.Proofs.Token.Lexeme
import Calculator.Proofs.Token.Span
import Calculator.Proofs.Token.Relocation
import Calculator.Proofs.Parser.Relocation
import Calculator.Proofs.Session.Spacing
import Calculator.Proofs.Session.History
import Calculator.Proofs.Expr.Offence
import Calculator.Proofs.Expr.Notation
import Calculator.Proofs.Expr.Traversal
import Calculator.Proofs.Parser.RoundTrip
import Calculator.Proofs.Command.Content
import Calculator.Proofs.Command.Flags
import Calculator.Proofs.Command.LineEndings
import Calculator.Proofs.Session.Conservation
import Calculator.Proofs.Token.Concatenation
import Calculator.Proofs.Token.Inscription
import Calculator.Proofs.Token.Requests
import Calculator.Proofs.Session.Chain
import Calculator.Proofs.Grammar.Operand
import Calculator.Proofs.Parser.Root
import Calculator.Proofs.Word.Division
import Calculator.Proofs.Parser.Nesting
import Calculator.Proofs.Parser.Resumption
import Calculator.Proofs.Session.Redundancy
import Calculator.Proofs.Session.Legibility
import Calculator.Proofs.Parser.Calls
import Calculator.Proofs.Parser.Counting
