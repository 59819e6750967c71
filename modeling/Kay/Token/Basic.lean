/-!
# Tokens

A token is a kind, the text it was read from, and where that text stands in the source. Places are
byte offsets into the UTF-8 form of the source, the end excluded.

The three tables below are the whole vocabulary that is fixed in advance; every other word is an
identifier and every other sign is `other`.
-/

namespace Kay

/-! ## Vocabulary -/

/-- The words that are no identifiers. -/
def keywords : List String := ["main", "integer", "bool", "if", "else", "while", "True", "False"]

/-- The texts of operators. -/
def operators : List String :=
  [":=", "<=", ">=", "==", "!=", "&&", "||", "+", "-", "*", "/", "<", ">", "!"]

/-- The texts of separators. -/
def separators : List String := ["(", ")", "\x7b", "\x7d", ";", ","]

/-- Whether a word is reserved. -/
def isKeyword (word : String) : Bool := word ∈ keywords

/-! ## Places -/

/-- A stretch of the source, in bytes. -/
structure Span where
  /-- The offset of the first byte. -/
  start : Nat
  /-- The offset behind the last byte. -/
  stop : Nat
deriving DecidableEq, Repr, Inhabited

/-! ## Kinds -/

/-- The lexical category of a token. -/
inductive TokenKind where
  | identifier
  | keyword
  | literal
  | operator
  | separator
  /-- A single character that starts no token of another kind. -/
  | other
  | endOfInput
deriving DecidableEq, Repr, Inhabited

namespace TokenKind

/-- The name of the kind. -/
def name : TokenKind → String
  | identifier => "Identifier"
  | keyword => "Keyword"
  | literal => "Literal"
  | operator => "Operator"
  | separator => "Separator"
  | other => "Other"
  | endOfInput => "EndOfInput"

/-- The phrase for the kind in running text. -/
def description : TokenKind → String
  | identifier => "identifier"
  | keyword => "keyword"
  | literal => "integer literal"
  | operator => "operator"
  | separator => "separator"
  | other => "unrecognized character"
  | endOfInput => "end of input"

end TokenKind

/-! ## Tokens -/

/-- A classified piece of the source. -/
structure Token where
  kind : TokenKind
  text : String
  span : Span
deriving DecidableEq, Repr, Inhabited

namespace Token

/-- The token that stands behind all others, at the offset where the source ends. -/
def endOfInput (offset : Nat) : Token := ⟨.endOfInput, "", ⟨offset, offset⟩⟩

/-- Whether a token has the given kind and exactly the given text. -/
def is (t : Token) (kind : TokenKind) (text : String) : Bool := t.kind = kind && t.text = text

/-- Whether a token is the given keyword. -/
def isKeyword (t : Token) (word : String) : Bool := t.is .keyword word

/-- Whether a token is the given separator. -/
def isSeparator (t : Token) (text : String) : Bool := t.is .separator text

/-- Whether a token is one of the given operators. -/
def isOperatorIn (t : Token) (texts : List String) : Bool := t.kind = .operator && t.text ∈ texts

/-- Whether a token stands for the end of the source. -/
def isEnd (t : Token) : Bool := t.kind = .endOfInput

/-- Kind and text of a token, as events show it. -/
def display (t : Token) : String := t.kind.name ++ " " ++ t.text

/-- The net number of blocks that a token opens. -/
def braceWeight (t : Token) : Int :=
  if t.isSeparator "\x7b" then 1 else if t.isSeparator "\x7d" then -1 else 0

end Token

end Kay
