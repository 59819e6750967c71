import Kay.Grammar.Expression

/-!
# The rules of statements

```text
Statements  := { Statement }            up to a closing brace or the end of input
Statement   := ";" | Block | Assignment | Conditional | Loop
Block       := "{" Statements "}"
Assignment  := Identifier ":=" Expression ";"
Conditional := "if" "(" Expression ")" Statement [ "else" Statement ]
Loop        := "while" "(" Expression ")" Statement
```

As with expressions, each form of statement is a rule over the rules for what it contains, and
`statement` ties the knot along the number of levels that may still be opened. Every statement
opens a level, and its expressions open theirs inside it. An `else` is read by the innermost
conditional that can take it, since that one looks first.
-/

namespace Kay.Rule

/-- Statements up to a closing brace or the end of input. -/
def statements (statement : Rule Statement) : Rule (List Statement) :=
  many fun t ↦ if t.isSeparator "\x7d" || t.isEnd then none else some statement

/-- Statements between braces. -/
def block (statement : Rule Statement) : Rule Statement := do
  let _ ← expectSeparator "\x7b" .block
  let members ← statements statement
  let _ ← expectSeparator "\x7d" .block
  pure (.block members)

/-- A variable and the expression whose value it gets. -/
def assignment (expression : Rule Expression) : Rule Statement := do
  let target ← expect (.kind .identifier) .assignment
  let _ ← expect (.lexeme .operator ":=") .assignment
  let source ← expression
  let _ ← expectSeparator ";" .assignment
  pure (.assignment ⟨target.text⟩ source)

/-- The keyword of a composite statement and the test behind it. -/
def guarded (keyword : String) (context : Context) (expression : Rule Expression) :
    Rule Expression := do
  let _ ← expect (.lexeme .keyword keyword) context
  let _ ← expectSeparator "(" context
  let test ← expression
  let _ ← expectSeparator ")" context
  pure test

/-- A test and one or two statements. -/
def conditional (expression : Rule Expression) (statement : Rule Statement) : Rule Statement := do
  let test ← guarded "if" .ifStatement expression
  let thenBranch ← statement
  if (← current).isKeyword "else" then
    let _ ← advance
    let elseBranch ← statement
    pure (.conditional test thenBranch (some elseBranch))
  else
    pure (.conditional test thenBranch none)

/-- A test and the statement that is repeated. -/
def loop (expression : Rule Expression) (statement : Rule Statement) : Rule Statement := do
  let test ← guarded "while" .whileStatement expression
  let body ← statement
  pure (.loop test body)

/-- A statement of any form, told by its first token. -/
def anyStatement (expression : Rule Expression) (statement : Rule Statement) :
    Rule Statement := do
  let t ← current
  if t.isSeparator ";" then
    let _ ← advance
    pure .skip
  else if t.isSeparator "\x7b" then
    block statement
  else if t.isKeyword "if" then
    conditional expression statement
  else if t.isKeyword "while" then
    loop expression statement
  else if t.kind = .identifier then
    assignment expression
  else
    unexpected .statement .statement

/-- A statement, where `depth` levels are open and `room` more may be opened. -/
def statement (depth : Nat) : (room : Nat) → Rule Statement
  | 0 => tooDeep depth
  | room + 1 => nested depth do
    report (.statementStarted (← current) (depth + 1))
    anyStatement (expression (depth + 1) room) (statement (depth + 1) room)

end Kay.Rule
