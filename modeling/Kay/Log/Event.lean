import Kay.Program.Basic
import Kay.Token.Basic
import Kay.Text.Decimal
import Kay.Text.Quoted

/-!
# Events

What scanner, parser and session report while they work. An event says what happened; its
severity, its target, its message and its fields follow from that and are tabulated here, so that
no function that reports one decides how it is shown.
-/

namespace Kay

/-! ## Severity -/

/-- How much an event matters. -/
inductive Severity where
  | error
  | warn
  | info
  | debug
  | trace
deriving DecidableEq, Repr

namespace Severity

/-- The name of a severity in log lines. -/
def name : Severity → String
  | error => "ERROR"
  | warn => "WARN"
  | info => "INFO"
  | debug => "DEBUG"
  | trace => "TRACE"

/-- The position of a severity, the gravest first. -/
def rank : Severity → Nat
  | error => 1
  | warn => 2
  | info => 3
  | debug => 4
  | trace => 5

/-- All severities, the gravest first. -/
def all : List Severity := [error, warn, info, debug, trace]

end Severity

/-! ## Fields -/

/-- The value of a field. Text that comes from the source may be quoted or plain. -/
inductive FieldValue where
  | number (n : Int)
  | quoted (text : String)
  | plain (text : String)
deriving DecidableEq, Repr

/-- A field as a log line shows it. -/
def FieldValue.display : FieldValue → String
  | number n => Text.Decimal.text n
  | quoted text => Text.quote text
  | plain text => text

/-! ## Events -/

/-- Something worth reporting. -/
inductive Event where
  /-- The scanner handed out a token, or the end of input for the first time. -/
  | scanned (token : Token)
  /-- The parser sets out to read a program. -/
  | programStarted
  /-- The parser has read the declaration of one name. -/
  | declared (name : String) (ty : VarType)
  /-- The parser sets out to read a statement from the given token on, as the given level. -/
  | statementStarted (first : Token) (depth : Nat)
  /-- The parser has read a program with so many declarations and top-level statements. -/
  | programParsed (declarations statements : Nat)
  /-- The session waits for more lines, as so many blocks are open. -/
  | awaitingBrace (depth : Int)
  /-- The session is over. -/
  | sessionEnded
deriving DecidableEq, Repr

namespace Event

/-- The severity of an event. A stray character is a warning, whatever comes of it. -/
def severity : Event → Severity
  | scanned t => if t.kind = .other then .warn else .trace
  | programStarted | programParsed _ _ | awaitingBrace _ => .debug
  | declared _ _ | statementStarted _ _ => .trace
  | sessionEnded => .info

/-- The component that an event is reported for. -/
def target : Event → String
  | scanned _ => "kay_lexer::scanner"
  | programStarted | declared _ _ | statementStarted _ _ | programParsed _ _ =>
    "kay_parser::parser"
  | awaitingBrace _ | sessionEnded => "kay"

/-- The message of an event. -/
def message : Event → String
  | scanned t =>
    match t.kind with
    | .endOfInput | .other => t.kind.description
    | _ => "token"
  | programStarted => "parsing program"
  | declared _ _ => "declared"
  | statementStarted _ _ => "statement"
  | programParsed _ _ => "parsed program"
  | awaitingBrace _ => "waiting for closing brace"
  | sessionEnded => "repl finished"

/-- The fields of an event, in the order in which they are shown. -/
def fields : Event → List (String × FieldValue)
  | scanned t =>
    match t.kind with
    | .endOfInput => [("offset", .number t.span.start)]
    | .other => [("text", .quoted t.text), ("start", .number t.span.start)]
    | kind => [("kind", .quoted kind.name), ("text", .quoted t.text),
        ("start", .number t.span.start)]
  | programStarted | sessionEnded => []
  | declared name ty => [("name", .plain name), ("ty", .plain ty.name)]
  | statementStarted first depth => [("token", .plain first.display), ("depth", .number depth)]
  | programParsed declarations statements =>
    [("declarations", .number declarations), ("statements", .number statements)]
  | awaitingBrace depth => [("depth", .number depth)]

/-- An event as a line of a log. -/
def line (e : Event) : String :=
  e.severity.name ++ " " ++ e.target ++ ": " ++ e.message ++
    String.join (e.fields.map fun f ↦ " " ++ f.1 ++ "=" ++ f.2.display)

end Event

end Kay
