import Kay.Command.Arguments
import Kay.Command.Run
import Kay.Command.Session
import Kay.Command.Transcript
import Kay.Grammar.Expression
import Kay.Grammar.Parser
import Kay.Grammar.Program
import Kay.Grammar.Rule
import Kay.Grammar.Statement
import Kay.Grammar.SyntaxError
import Kay.Json.Basic
import Kay.Json.Text
import Kay.Log.Directive
import Kay.Log.Event
import Kay.Log.Filter
import Kay.Log.Pattern
import Kay.Main
import Kay.Program.Basic
import Kay.Program.Encoding
import Kay.Program.Layout
import Kay.Program.Outline
import Kay.Proofs.Command.Accumulation
import Kay.Proofs.Command.Entry
import Kay.Proofs.Command.Output
import Kay.Proofs.Command.Respond
import Kay.Proofs.Grammar.Account
import Kay.Proofs.Grammar.Alike
import Kay.Proofs.Grammar.Blocks
import Kay.Proofs.Grammar.Completion
import Kay.Proofs.Grammar.Derivation
import Kay.Proofs.Grammar.Earliest
import Kay.Proofs.Grammar.Expected
import Kay.Proofs.Grammar.Expression
import Kay.Proofs.Grammar.Failing
import Kay.Proofs.Grammar.FirstTokens
import Kay.Proofs.Grammar.Limit
import Kay.Proofs.Grammar.Locality
import Kay.Proofs.Grammar.Longest
import Kay.Proofs.Grammar.Placement
import Kay.Proofs.Grammar.Program
import Kay.Proofs.Grammar.Progress
import Kay.Proofs.Grammar.Reading
import Kay.Proofs.Grammar.Recount
import Kay.Proofs.Grammar.Statement
import Kay.Proofs.Grammar.Termination
import Kay.Proofs.Grammar.Trace
import Kay.Proofs.Grammar.Unambiguous
import Kay.Proofs.Json.Forms
import Kay.Proofs.Program.Canonical
import Kay.Proofs.Program.Derived
import Kay.Proofs.Program.Encoding
import Kay.Proofs.Program.Image
import Kay.Proofs.Program.Indented
import Kay.Proofs.Program.Normal
import Kay.Proofs.Program.Outline
import Kay.Proofs.Program.Reread
import Kay.Proofs.Program.Spelling
import Kay.Proofs.Source.Marked
import Kay.Proofs.Token.Depth
import Kay.Proofs.Token.Insertion
import Kay.Proofs.Token.Interleaved
import Kay.Proofs.Token.Lexical
import Kay.Proofs.Token.Lines
import Kay.Proofs.Token.Scan
import Kay.Proofs.Token.Seam
import Kay.Proofs.Token.Spaced
import Kay.Source.Basic
import Kay.Source.Diagnostic
import Kay.Source.FileTree
import Kay.Text.Alphanumeric
import Kay.Text.Backspace
import Kay.Text.Blank
import Kay.Text.Bytes
import Kay.Text.Cluster
import Kay.Text.CodePoints
import Kay.Text.Conjunct
import Kay.Text.Decimal
import Kay.Text.Digit
import Kay.Text.Extender
import Kay.Text.Indentation
import Kay.Text.Letter
import Kay.Text.Pictograph
import Kay.Text.Pieces
import Kay.Text.Printable
import Kay.Text.Quoted
import Kay.Text.SpacingMark
import Kay.Token.Basic
import Kay.Token.Lexeme
import Kay.Token.Scanner
import Kay.Token.Stream
