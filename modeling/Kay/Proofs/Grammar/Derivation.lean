import Kay.Program.Basic
import Kay.Proofs.Token.Terminal
import Mathlib.Data.Nat.Digits.Defs

/-!
# The grammar

The language as a set of derivations, said without a parser: which lists of terminals stand for
which trees.

```text
Program      := "main" "{" Declarations Statements "}" end of input
Declarations := { ( "integer" | "bool" ) Identifier { "," Identifier } ";" }
Statements   := { Statement }
Statement    := ";" | "{" Statements "}" | Identifier ":=" Expression ";"
              | "if" "(" Expression ")" Statement [ "else" Statement ]
              | "while" "(" Expression ")" Statement
Expression   := Conjunction { "||" Conjunction }
Conjunction  := Relation { "&&" Relation }
Relation     := Addition [ ( "<" | "<=" | ">" | ">=" | "==" | "!=" ) Addition ]
Addition     := Term { ( "+" | "-" ) Term }
Term         := Negation { ( "*" | "/" ) Negation }
Negation     := [ "!" ] Factor
Factor       := Identifier | Literal | "True" | "False" | "(" Expression ")"
```

A level whose operators associate to the left is written left-recursively, so that the shape of the
tree is part of the rule. An `else` belongs to the nearest `if` that has none, which is to say that
the statement in front of an `else` does not end in an open `if`.

The last index of each relation is the nesting of the derivation: the largest number of statements
and parenthesised factors that are open at once. The parentheses around the test of an `if` or a
`while` belong to the statement and do not count.
-/

namespace Kay

namespace Grammar

/-! ## Expressions -/

/-- The levels of expressions, from the operators that bind the least to those that bind the
most. -/
inductive Level where
  | disjunction
  | conjunction
  | relation
  | addition
  | term
  | negation
  | factor
deriving DecidableEq, Repr

namespace Level

/-- The level of the operands. -/
def tighter : Level → Level
  | disjunction => conjunction
  | conjunction => relation
  | relation => addition
  | addition => term
  | term => negation
  | negation | factor => factor

/-- The operators between two operands of a level. -/
def operators : Level → List String
  | disjunction => ["||"]
  | conjunction => ["&&"]
  | relation => ["<", "<=", ">", ">=", "==", "!="]
  | addition => ["+", "-"]
  | term => ["*", "/"]
  | negation | factor => []

/-- Whether a level takes any number of operators, which then associate to the left. -/
def associates : Level → Bool
  | disjunction | conjunction | addition | term => true
  | relation | negation | factor => false

/-- What holds of negations, and of each level of binary operators if it holds of the operands,
holds of every level but that of factors. -/
theorem ascend {P : Level → Prop} (hnegation : P negation)
    (hstep : ∀ l : Level, l.associates = true ∨ l = relation → P l.tighter → P l) {l : Level}
    (hl : l ≠ factor) : P l := by
  have hterm : P term := hstep term (.inl rfl) hnegation
  have haddition : P addition := hstep addition (.inl rfl) hterm
  have hrelation : P relation := hstep relation (.inr rfl) haddition
  have hconjunction : P conjunction := hstep conjunction (.inl rfl) hrelation
  cases l with
  | disjunction => exact hstep disjunction (.inl rfl) hconjunction
  | conjunction => exact hconjunction
  | relation => exact hrelation
  | addition => exact haddition
  | term => exact hterm
  | negation => exact hnegation
  | factor => exact absurd rfl hl

/-- What holds of disjunctions, and of the operands of each level of binary operators if it holds of
the level, holds of every level but that of factors. -/
theorem descend {P : Level → Prop} (hdisjunction : P disjunction)
    (hstep : ∀ l : Level, l.associates = true ∨ l = relation → P l → P l.tighter) {l : Level}
    (hl : l ≠ factor) : P l := by
  have hconjunction : P conjunction := hstep disjunction (.inl rfl) hdisjunction
  have hrelation : P relation := hstep conjunction (.inl rfl) hconjunction
  have haddition : P addition := hstep relation (.inr rfl) hrelation
  have hterm : P term := hstep addition (.inl rfl) haddition
  cases l with
  | disjunction => exact hdisjunction
  | conjunction => exact hconjunction
  | relation => exact hrelation
  | addition => exact haddition
  | term => exact hterm
  | negation => exact hstep term (.inl rfl) hterm
  | factor => exact absurd rfl hl

theorem ne_factor_of_binary {l : Level} (h : l.associates = true ∨ l = relation) :
    l ≠ factor ∧ l.tighter ≠ factor := by
  cases l <;> revert h <;> decide

end Level

/-- The number that a string of decimal digits stands for, its last digit being the units. -/
def decimalValue (text : String) : Nat :=
  Nat.ofDigits 10 (text.toList.reverse.map fun c ↦ c.toNat - '0'.toNat)

/-- The factors that are a single terminal. -/
inductive Atom : Terminal → Expression → Prop
  | reference (name : String) : Atom (.identifier name) (.variable ⟨name⟩)
  /-- A literal stands for its decimal value if that is an integer of the language. -/
  | literal {text : String} (h : decimalValue text ≤ 2147483647) :
      Atom (.literal text) (.value (.integer (Int32.ofNat (decimalValue text))))
  | true : Atom (.keyword "True") (.value (.boolean true))
  | false : Atom (.keyword "False") (.value (.boolean false))

/-- `DerivesExpression l w e n`: at level `l`, the terminals `w` stand for `e`, with nesting `n`. -/
inductive DerivesExpression : Level → List Terminal → Expression → Nat → Prop
  | atom {t : Terminal} {e : Expression} (h : Atom t e) : DerivesExpression .factor [t] e 0
  /-- Parentheses open a level of nesting and leave no trace in the tree. -/
  | group {w : List Terminal} {e : Expression} {n : Nat}
      (h : DerivesExpression .disjunction w e n) :
      DerivesExpression .factor (.separator "(" :: (w ++ [.separator ")"])) e (n + 1)
  | not {w : List Terminal} {e : Expression} {n : Nat} (h : DerivesExpression .factor w e n) :
      DerivesExpression .negation (.operator "!" :: w) (.unary ⟨"!"⟩ e) n
  /-- A single operand needs no operator. -/
  | operand {l : Level} {w : List Terminal} {e : Expression} {n : Nat} (hl : l ≠ .factor)
      (h : DerivesExpression l.tighter w e n) : DerivesExpression l w e n
  /-- One more operand to the right of what the level has derived so far. -/
  | chain {l : Level} {op : String} {u v : List Terminal} {e f : Expression} {m n : Nat}
      (hl : l.associates = true) (hop : op ∈ l.operators) (he : DerivesExpression l u e m)
      (hf : DerivesExpression l.tighter v f n) :
      DerivesExpression l (u ++ .operator op :: v) (.binary ⟨op⟩ e f) (max m n)
  /-- A comparison, whose operands hold none outside parentheses. -/
  | compare {op : String} {u v : List Terminal} {e f : Expression} {m n : Nat}
      (hop : op ∈ Level.relation.operators) (he : DerivesExpression .addition u e m)
      (hf : DerivesExpression .addition v f n) :
      DerivesExpression .relation (u ++ .operator op :: v) (.binary ⟨op⟩ e f) (max m n)

namespace DerivesExpression

variable {l : Level} {w : List Terminal} {e : Expression} {n : Nat}

theorem of_negation (h : DerivesExpression .negation w e n) (hl : l ≠ .factor) :
    DerivesExpression l w e n :=
  Level.ascend (P := fun l ↦ DerivesExpression l w e n) h
    (fun _ hbinary h ↦ .operand (Level.ne_factor_of_binary hbinary).1 h) hl

theorem to_disjunction (h : DerivesExpression l w e n) : DerivesExpression .disjunction w e n := by
  by_cases hl : l = .factor
  · subst hl
    exact of_negation (.operand (by decide) h) (by decide)
  · revert h
    refine Level.descend (P := fun l ↦ DerivesExpression l w e n →
      DerivesExpression .disjunction w e n) id ?_ hl
    intro l hbinary ih h
    exact ih (.operand (Level.ne_factor_of_binary hbinary).1 h)

end DerivesExpression

/-! ## Statements -/

mutual

/-- `DerivesStatement w s n`: the terminals `w` stand for the statement `s`, with nesting `n`. -/
inductive DerivesStatement : List Terminal → Statement → Nat → Prop
  | skip : DerivesStatement [.separator ";"] .skip 1
  | assignment (name : String) {w : List Terminal} {e : Expression} {n : Nat}
      (he : DerivesExpression .disjunction w e n) :
      DerivesStatement (.identifier name :: .operator ":=" :: (w ++ [.separator ";"]))
        (.assignment ⟨name⟩ e) (n + 1)
  | ifThen {w u : List Terminal} {b : Expression} {t : Statement} {m n : Nat}
      (hb : DerivesExpression .disjunction w b m) (ht : DerivesStatement u t n) :
      DerivesStatement (.keyword "if" :: .separator "(" :: (w ++ .separator ")" :: u))
        (.conditional b t none) (max m n + 1)
  /-- The first branch may not end in an `if` that the `else` could belong to. -/
  | ifThenElse {w u v : List Terminal} {b : Expression} {t e : Statement} {m n k : Nat}
      (hb : DerivesExpression .disjunction w b m) (ht : DerivesStatement u t n)
      (hopen : t.endsWithOpenIf = false) (he : DerivesStatement v e k) :
      DerivesStatement
        (.keyword "if" :: .separator "(" :: (w ++ .separator ")" :: (u ++ .keyword "else" :: v)))
        (.conditional b t (some e)) (max m (max n k) + 1)
  | loop {w u : List Terminal} {b : Expression} {s : Statement} {m n : Nat}
      (hb : DerivesExpression .disjunction w b m) (hs : DerivesStatement u s n) :
      DerivesStatement (.keyword "while" :: .separator "(" :: (w ++ .separator ")" :: u))
        (.loop b s) (max m n + 1)
  | block {w : List Terminal} {ms : List Statement} {n : Nat} (h : DerivesStatements w ms n) :
      DerivesStatement (.separator "\x7b" :: (w ++ [.separator "\x7d"])) (.block ms) (n + 1)

/-- `DerivesStatements w ms n`: the terminals `w` stand for the statements `ms` in sequence. -/
inductive DerivesStatements : List Terminal → List Statement → Nat → Prop
  | nil : DerivesStatements [] [] 0
  | cons {u w : List Terminal} {s : Statement} {ms : List Statement} {m n : Nat}
      (hs : DerivesStatement u s m) (hms : DerivesStatements w ms n) :
      DerivesStatements (u ++ w) (s :: ms) (max m n)

end

/-! ## Programs -/

/-- `DerivesNames ty w ds`: the terminals `w` are names between commas, declared to be `ty`. -/
inductive DerivesNames (ty : VarType) : List Terminal → List Declaration → Prop
  | last (name : String) : DerivesNames ty [.identifier name] [⟨ty, ⟨name⟩⟩]
  | cons (name : String) {w : List Terminal} {ds : List Declaration} (h : DerivesNames ty w ds) :
      DerivesNames ty (.identifier name :: .separator "," :: w) (⟨ty, ⟨name⟩⟩ :: ds)

/-- `DerivesDeclarations w ds`: the terminals `w` stand for the declarations `ds`, one for every
declared name in the order of the source. -/
inductive DerivesDeclarations : List Terminal → List Declaration → Prop
  | nil : DerivesDeclarations [] []
  | cons {ty : VarType} {u w : List Terminal} {cs ds : List Declaration}
      (h : DerivesNames ty u cs) (hds : DerivesDeclarations w ds) :
      DerivesDeclarations (.keyword ty.keyword :: (u ++ .separator ";" :: w)) (cs ++ ds)

/-- `DerivesProgram w p n`: the terminals `w` stand for the program `p`, with nesting `n`. -/
inductive DerivesProgram : List Terminal → Program → Nat → Prop
  | intro {u w : List Terminal} {ds : List Declaration} {ms : List Statement} {n : Nat}
      (hds : DerivesDeclarations u ds) (hms : DerivesStatements w ms n) :
      DerivesProgram
        (.keyword "main" :: .separator "\x7b" :: (u ++ (w ++ [.separator "\x7d", .endOfInput])))
        ⟨ds, ⟨ms⟩⟩ n

end Grammar

end Kay
