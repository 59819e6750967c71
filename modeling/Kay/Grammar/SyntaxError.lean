import Kay.Text.Decimal
import Kay.Text.Quoted
import Kay.Token.Basic

/-!
# Syntax errors

Why a token list is no program. Every error names the token at which it was found, and with it the
place; an unexpected token comes with what the rule that met it would have accepted instead, as
data, from which the wording is made.
-/

namespace Kay

/-! ## What was expected -/

/-- The rules that can meet an unexpected token. -/
inductive Context where
  | program
  | declaration
  | statement
  | block
  | assignment
  | ifStatement
  | whileStatement
  | factor
deriving DecidableEq, Repr

/-- The name of a rule in messages. -/
def Context.name : Context → String
  | program => "program"
  | declaration => "declaration"
  | statement => "statement"
  | block => "block"
  | assignment => "assignment"
  | ifStatement => "if statement"
  | whileStatement => "while statement"
  | factor => "factor"

/-- A token that a rule would accept: one with a given kind and text, or any of a kind. -/
inductive Alternative where
  | lexeme (kind : TokenKind) (text : String)
  | kind (kind : TokenKind)
deriving DecidableEq, Repr

namespace Alternative

/-- Whether a token is what the alternative asks for. -/
def admits : Alternative → Token → Bool
  | lexeme k text, t => t.is k text
  | kind k, t => t.kind = k

/-- The alternative as an item of a list: a text in single quotes, a kind by its description. -/
def phrase : Alternative → String
  | lexeme _ text => "'" ++ text ++ "'"
  | kind k => k.description

end Alternative

/-- What a rule expected. -/
inductive Expectation where
  /-- One thing only. -/
  | one (alternative : Alternative)
  /-- One of several things, of which the last is set off by a conjunction. -/
  | anyOf (alternatives : List Alternative) (last : Alternative)
  /-- Something that the caller puts into words. -/
  | phrase (text : String)
deriving DecidableEq, Repr

namespace Expectation

/-- The alternatives that an expectation names. -/
def alternatives : Expectation → List Alternative
  | one a => [a]
  | anyOf as last => as ++ [last]
  | phrase _ => []

/-- The wording of an expectation. A kind that stands alone goes by its name. -/
def text : Expectation → String
  | one (.kind k) => k.name
  | one (.lexeme k t) => (Alternative.lexeme k t).phrase
  | anyOf as last => String.intercalate ", " (as.map Alternative.phrase) ++ " or " ++ last.phrase
  | phrase t => t

/-- What may start a statement. -/
def statement : Expectation :=
  anyOf [.lexeme .separator ";", .lexeme .separator "\x7b", .lexeme .keyword "if",
    .lexeme .keyword "while"] (.kind .identifier)

/-- What may start a factor. -/
def factor : Expectation :=
  anyOf [.kind .identifier, .kind .literal, .lexeme .keyword "True", .lexeme .keyword "False"]
    (.lexeme .separator "(")

end Expectation

/-! ## Errors -/

/-- Why a token list is no program. -/
inductive SyntaxError where
  /-- A rule met a token that it has no use for. -/
  | unexpectedToken (context : Context) (expected : Expectation) (found : Token)
  /-- A literal stands for a number that is no integer of the language. -/
  | literalOutOfRange (literal : Token)
  /-- A statement or a parenthesis would open one level more than the limit allows. -/
  | nestingTooDeep (limit : Nat) (opening : Token)
deriving DecidableEq, Repr

namespace SyntaxError

/-- The token at which an error was found. -/
def token : SyntaxError → Token
  | unexpectedToken _ _ found => found
  | literalOutOfRange literal => literal
  | nestingTooDeep _ opening => opening

/-- The place of an error. -/
def span (e : SyntaxError) : Span := e.token.span

/-- The token that a message may show as the one found. Nesting is no fault of the token at which
it became too deep. -/
def found? : SyntaxError → Option Token
  | unexpectedToken _ _ found => some found
  | literalOutOfRange literal => some literal
  | nestingTooDeep _ _ => none

/-- What was expected, where an error is about that. -/
def expected? : SyntaxError → Option Expectation
  | unexpectedToken _ expected _ => some expected
  | literalOutOfRange _ | nestingTooDeep _ _ => none

/-- The message of an error. -/
def message : SyntaxError → String
  | unexpectedToken context expected found =>
    "syntax error in " ++ context.name ++ ": expecting " ++ expected.text ++ " but saw " ++
      found.kind.name ++ " " ++ Text.quote found.text
  | literalOutOfRange literal =>
    "syntax error: integer literal " ++ literal.text ++ " is out of range"
  | nestingTooDeep limit _ =>
    "syntax error: statements and parentheses nested deeper than " ++
      Text.Decimal.text limit ++ " levels"

end SyntaxError

end Kay
