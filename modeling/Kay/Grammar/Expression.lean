import Kay.Grammar.Rule

/-!
# The rules of expressions

```text
Expression  := Conjunction { "||" Conjunction }
Conjunction := Relation { "&&" Relation }
Relation    := Addition [ ( "<" | "<=" | ">" | ">=" | "==" | "!=" ) Addition ]
Addition    := Term { ( "+" | "-" ) Term }
Term        := Negation { ( "*" | "/" ) Negation }
Negation    := [ "!" ] Factor
Factor      := Identifier | Literal | "True" | "False" | "(" Expression ")"
```

Only a parenthesis leads back to the top. All levels are therefore given over a rule `group` for a
parenthesised factor, without recursion, and `expression` ties the knot along the number of levels
that may still be opened. When there is none left, `group` is the rule that fails.
-/

namespace Kay.Rule

open Text

/-! ## Literals -/

/-- The largest integer that a literal can stand for. -/
def maxLiteral : Nat := 2147483647

/-- The integer that a literal stands for, if it is one of the language. Leading zeros count for
nothing. -/
def literalValue? (text : String) : Option Int32 :=
  let n := Decimal.value text.toList
  if n ≤ maxLiteral then some (Int32.ofNat n) else none

/-! ## Levels -/

/-- Reads an operator. -/
def operator : Rule Operator := do
  let t ← advance
  pure ⟨t.text⟩

/-- An operand and any number of further ones, each behind one of the operators. -/
def operands (ops : List String) (operand : Rule Expression) :
    Rule (Expression × List (Operator × Expression)) := do
  let first ← operand
  let others ← many fun t ↦
    if t.isOperatorIn ops then some (do
      let op ← operator
      let right ← operand
      pure (op, right))
    else none
  pure (first, others)

/-- Joins operands from the left. -/
def joinLeft (first : Expression) (others : List (Operator × Expression)) : Expression :=
  others.foldl (fun left o ↦ .binary o.1 left o.2) first

/-- A level whose operators associate to the left. -/
def leftAssociative (ops : List String) (operand : Rule Expression) : Rule Expression := do
  let (first, others) ← operands ops operand
  pure (joinLeft first others)

/-- A level on which an operator may stand once. A second one is left for the caller. -/
def nonAssociative (ops : List String) (operand : Rule Expression) : Rule Expression := do
  let left ← operand
  if (← current).isOperatorIn ops then
    let op ← operator
    let right ← operand
    pure (.binary op left right)
  else
    pure left

/-- A factor. A literal that is out of range has been read when the rule fails. -/
def factor (group : Rule Expression) : Rule Expression := do
  let t ← current
  if t.kind = .identifier then
    let _ ← advance
    pure (.variable ⟨t.text⟩)
  else if t.kind = .literal then
    let _ ← advance
    match literalValue? t.text with
    | some n => pure (.value (.integer n))
    | none => fail (.literalOutOfRange t)
  else if t.isKeyword "True" then
    let _ ← advance
    pure (.value (.boolean true))
  else if t.isKeyword "False" then
    let _ ← advance
    pure (.value (.boolean false))
  else if t.isSeparator "(" then
    group
  else
    unexpected .factor .factor

/-- A factor, with at most one `!` in front. -/
def negation (group : Rule Expression) : Rule Expression := do
  if (← current).isOperatorIn ["!"] then
    let op ← operator
    let operand ← factor group
    pure (.unary op operand)
  else
    factor group

/-- Factors that are multiplied or divided. -/
def term (group : Rule Expression) : Rule Expression :=
  leftAssociative ["*", "/"] (negation group)

/-- Terms that are added or subtracted. -/
def addition (group : Rule Expression) : Rule Expression :=
  leftAssociative ["+", "-"] (term group)

/-- At most two sums that are compared. -/
def relation (group : Rule Expression) : Rule Expression :=
  nonAssociative Operator.relations (addition group)

/-- Relations that all have to hold. -/
def conjunction (group : Rule Expression) : Rule Expression :=
  leftAssociative ["&&"] (relation group)

/-- Conjunctions of which one has to hold. -/
def disjunction (group : Rule Expression) : Rule Expression :=
  leftAssociative ["||"] (conjunction group)

/-! ## Nesting -/

/-- Stops at the token that would open one level more than there may be. -/
def tooDeep {α : Type} (limit : Nat) : Rule α := do
  fail (.nestingTooDeep limit (← current))

/-- An expression, where `depth` levels are open and `room` more may be opened. -/
def expression (depth : Nat) : (room : Nat) → Rule Expression
  | 0 => disjunction (tooDeep depth)
  | room + 1 => disjunction (nested depth do
      let _ ← advance
      let e ← expression (depth + 1) room
      let _ ← expectSeparator ")" .factor
      pure e)

end Kay.Rule
