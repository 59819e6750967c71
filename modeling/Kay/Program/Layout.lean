import Kay.Program.Basic
import Kay.Text.Decimal
import Kay.Text.Indentation

/-!
# Canonical text

The one text in which a tree is written: two spaces of indentation for every level, one declaration
or statement a line, every operand that is itself a binary expression in parentheses.

A block that is the branch of another statement opens on the line of that statement, and any other
branch stands on lines of its own one level deeper. A statement is therefore written without the
indentation of its first line (`Statement.unindented`), and whoever places it puts that in front.

A conditional with an `else` writes braces around its first branch if that branch ends in a
conditional without one. Otherwise the `else` would be read as part of that inner conditional.
-/

namespace Kay

open Text (indentation)

/-! ## Expressions -/

/-- A truth value as written. -/
def boolText (b : Bool) : String := if b then "True" else "False"

/-- A literal value as written. A negative integer has no literal; it is shown with a minus sign. -/
def Value.text : Value → String
  | integer n => Text.Decimal.text n.toInt
  | boolean b => boolText b

namespace Expression

/-- Whether an expression is an operation on two operands. -/
def isBinary : Expression → Bool
  | binary _ _ _ => true
  | _ => false

/-- Whether an expression is an operation on one operand. -/
def isUnary : Expression → Bool
  | unary _ _ => true
  | _ => false

/-- A text in parentheses, where these are called for. -/
def grouped (parentheses : Bool) (text : String) : String :=
  if parentheses then "(" ++ text ++ ")" else text

/-- An expression as written. -/
def text : Expression → String
  | .variable v => v.name
  | .value v => v.text
  | .unary op operand => op.lexeme ++ grouped (operand.isUnary || operand.isBinary) operand.text
  | .binary op left right =>
    grouped left.isBinary left.text ++ " " ++ op.lexeme ++ " " ++
      grouped right.isBinary right.text

end Expression

/-! ## Statements -/

namespace Statement

/-- A statement as the branch of one at the given level, by what the branch is written as at any
level. -/
def asBranch (level : Nat) (s : Statement) (written : Nat → String) : String :=
  if s.isBlock then " " ++ written level
  else "\n" ++ indentation (level + 1) ++ written (level + 1)

/-- The first of two branches, and the `else` behind it. -/
def beforeElse (level : Nat) (s : Statement) (written : Nat → String) : String :=
  if s.endsWithOpenIf then
    " \x7b\n" ++ indentation (level + 1) ++ written (level + 1) ++ "\n" ++
      indentation level ++ "\x7d else"
  else if s.isBlock then
    asBranch level s written ++ " else"
  else
    asBranch level s written ++ "\n" ++ indentation level ++ "else"

mutual

/-- A statement as written at the given level, without the blanks in front of its first line. -/
def unindented : Statement → Nat → String
  | skip, _ => ";"
  | assignment target source, _ => target.name ++ " := " ++ source.text ++ ";"
  | conditional test thenBranch none, level =>
    "if (" ++ test.text ++ ")" ++ asBranch level thenBranch (unindented thenBranch)
  | conditional test thenBranch (some elseBranch), level =>
    "if (" ++ test.text ++ ")" ++ beforeElse level thenBranch (unindented thenBranch) ++
      asBranch level elseBranch (unindented elseBranch)
  | loop test body, level => "while (" ++ test.text ++ ")" ++ asBranch level body (unindented body)
  | block [], _ => "\x7b \x7d"
  | block (m :: ms), level =>
    "\x7b\n" ++ indentation (level + 1) ++ unindented m (level + 1) ++ "\n" ++
      linesOf ms (level + 1) ++ indentation level ++ "\x7d"

/-- Statements as written below each other, each with the end of its last line. -/
def linesOf : List Statement → Nat → String
  | [], _ => ""
  | m :: ms, level => indentation level ++ unindented m level ++ "\n" ++ linesOf ms level

end

/-- A statement as written at the given level. -/
def text (s : Statement) (level : Nat) : String := indentation level ++ s.unindented level

end Statement

/-! ## Programs -/

/-- A declaration as written at the given level. -/
def Declaration.text (d : Declaration) (level : Nat) : String :=
  indentation level ++ d.ty.keyword ++ " " ++ d.declared.name ++ ";"

/-- A program as written at the given level. -/
def Program.text (p : Program) (level : Nat) : String :=
  indentation level ++ "main \x7b\n" ++
    String.join (p.declarations.map fun d ↦ d.text (level + 1) ++ "\n") ++
    Statement.linesOf p.body.members (level + 1) ++ indentation level ++ "\x7d\n"

end Kay
