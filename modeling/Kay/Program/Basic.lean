/-!
# Programs

The abstract form of a KAY program: declarations, then a sequence of statements over expressions.

The tree is wider than the language. A name or an operator is any string and an integer any word of
32 bits, so trees built by hand or read from outside can be held, printed and compared as well;
which of them have a source text is for the grammar to say.

A block is a list of statements and an `else` branch an optional one. `Statement.inductionOn` is
the induction that goes with this nesting, and equality is decided along it.
-/

namespace Kay

/-! ## Names, types and values -/

/-- A reference to a named variable. -/
structure Variable where
  /-- The name, as written. -/
  name : String
deriving DecidableEq, Repr, Inhabited

/-- The type of a declared variable. -/
inductive VarType where
  | integer
  | boolean
deriving DecidableEq, Repr, Inhabited

namespace VarType

/-- The keyword that declares a variable of the type. -/
def keyword : VarType → String
  | integer => "integer"
  | boolean => "bool"

/-- The name of the type in displays of a tree. -/
def name : VarType → String
  | integer => "INTEGER"
  | boolean => "BOOLEAN"

/-- The type that a word declares, if it is the keyword of one. -/
def ofKeyword? (word : String) : Option VarType :=
  if word = integer.keyword then some integer
  else if word = boolean.keyword then some boolean
  else none

theorem ofKeyword?_eq_some_iff {word : String} {ty : VarType} :
    ofKeyword? word = some ty ↔ word = ty.keyword := by
  unfold ofKeyword?
  split
  · subst word; cases ty <;> decide
  · split
    · subst word; cases ty <;> decide
    · cases ty <;> simp_all

end VarType

/-- A literal value. Integers are words of 32 bits. -/
inductive Value where
  | integer (n : Int32)
  | boolean (b : Bool)
deriving DecidableEq, Repr, Inhabited

/-! ## Operators -/

/-- An operator, identified by its exact lexeme. -/
structure Operator where
  /-- The lexeme. -/
  lexeme : String
deriving DecidableEq, Repr, Inhabited

namespace Operator

/-- The lexemes that compare two operands. -/
def relations : List String := ["<", "<=", ">", ">=", "==", "!=", "<>"]

/-- Whether the operator compares. -/
def isRelational (op : Operator) : Bool := op.lexeme ∈ relations

/-- Whether the operator combines truth values. -/
def isBoolean (op : Operator) : Bool := op.lexeme ∈ ["||", "&&", "!"]

/-- Whether the operator calculates. -/
def isArithmetic (op : Operator) : Bool := op.lexeme ∈ ["+", "-", "*", "/"]

end Operator

/-! ## Expressions -/

/-- An expression. -/
inductive Expression where
  | variable (v : Variable)
  | value (v : Value)
  | unary (op : Operator) (operand : Expression)
  | binary (op : Operator) (left right : Expression)
deriving DecidableEq, Repr, Inhabited

/-! ## Statements -/

/-- A statement. -/
inductive Statement where
  /-- The empty statement. -/
  | skip
  /-- Gives a variable the value of an expression. -/
  | assignment (target : Variable) (source : Expression)
  /-- Chooses between two statements, the second of which may be missing. -/
  | conditional (test : Expression) (thenBranch : Statement) (elseBranch : Option Statement)
  /-- Repeats a statement while a test holds. -/
  | loop (test : Expression) (body : Statement)
  /-- Statements in sequence. -/
  | block (members : List Statement)
deriving Repr, Inhabited

namespace Statement

/-- Induction on statements, with the hypothesis for the branch that is there and for every member
of a block. -/
@[elab_as_elim]
theorem inductionOn {motive : Statement → Prop} (s : Statement) (skip : motive .skip)
    (assignment : ∀ target source, motive (.assignment target source))
    (conditional : ∀ test thenBranch elseBranch, motive thenBranch →
      (∀ e ∈ elseBranch, motive e) → motive (.conditional test thenBranch elseBranch))
    (loop : ∀ test body, motive body → motive (.loop test body))
    (block : ∀ members, (∀ m ∈ members, motive m) → motive (.block members)) : motive s :=
  @Statement.rec motive (fun branch ↦ ∀ e ∈ branch, motive e) (fun ms ↦ ∀ m ∈ ms, motive m)
    skip assignment (fun test t e ht he ↦ conditional test t e ht he) loop block (by simp)
    (fun e he ↦ by simpa using he) (by simp) (fun m ms hm hms ↦ by simpa using ⟨hm, hms⟩) s

mutual

/-- Equality of statements is decided by comparing their parts. -/
def decEq : (s t : Statement) → Decidable (s = t)
  | skip, skip => isTrue rfl
  | assignment x e, assignment y f => decidable_of_iff (x = y ∧ e = f) (by simp)
  | conditional b s none, conditional c t none =>
    have := decEq s t
    decidable_of_iff (b = c ∧ s = t) (by simp)
  | conditional b s (some s'), conditional c t (some t') =>
    have := decEq s t
    have := decEq s' t'
    decidable_of_iff (b = c ∧ s = t ∧ s' = t') (by simp)
  | conditional _ _ none, conditional _ _ (some _)
  | conditional _ _ (some _), conditional _ _ none => isFalse (by simp)
  | loop b s, loop c t =>
    have := decEq s t
    decidable_of_iff (b = c ∧ s = t) (by simp)
  | block ss, block ts =>
    have := decEqMembers ss ts
    decidable_of_iff (ss = ts) (by simp)
  | skip, assignment _ _ | skip, conditional _ _ _ | skip, loop _ _ | skip, block _
  | assignment _ _, skip | assignment _ _, conditional _ _ _ | assignment _ _, loop _ _
  | assignment _ _, block _
  | conditional _ _ _, skip | conditional _ _ _, assignment _ _ | conditional _ _ _, loop _ _
  | conditional _ _ _, block _
  | loop _ _, skip | loop _ _, assignment _ _ | loop _ _, conditional _ _ _ | loop _ _, block _
  | block _, skip | block _, assignment _ _ | block _, conditional _ _ _
  | block _, loop _ _ => isFalse nofun

/-- Equality of the members of two blocks. -/
def decEqMembers : (ss ts : List Statement) → Decidable (ss = ts)
  | [], [] => isTrue rfl
  | s :: ss, t :: ts =>
    have := decEq s t
    have := decEqMembers ss ts
    decidable_of_iff (s = t ∧ ss = ts) (by simp)
  | [], _ :: _ | _ :: _, [] => isFalse nofun

end

instance : DecidableEq Statement := decEq

/-- Whether a statement is a block. -/
def isBlock : Statement → Bool
  | block _ => true
  | _ => false

/-- Whether a statement ends in a conditional without `else`, to which an `else` written directly
behind the statement would belong. -/
def endsWithOpenIf : Statement → Bool
  | conditional _ _ none => true
  | conditional _ _ (some e) => e.endsWithOpenIf
  | loop _ body => body.endsWithOpenIf
  | skip | assignment _ _ | block _ => false

end Statement

/-! ### The parts of a statement

The composite statements as records, for callers that handle one kind of statement alone. -/

/-- The parts of an assignment. -/
structure Assignment where
  target : Variable
  source : Expression
deriving DecidableEq, Repr

/-- The parts of a conditional. -/
structure Conditional where
  test : Expression
  thenBranch : Statement
  elseBranch : Option Statement
deriving DecidableEq, Repr

/-- The parts of a loop. -/
structure Loop where
  test : Expression
  body : Statement
deriving DecidableEq, Repr

/-- A sequence of statements. -/
structure Block where
  members : List Statement
deriving DecidableEq, Repr, Inhabited

/-- The statement that has the given parts. -/
def Assignment.toStatement (a : Assignment) : Statement := .assignment a.target a.source

/-- The statement that has the given parts. -/
def Conditional.toStatement (c : Conditional) : Statement :=
  .conditional c.test c.thenBranch c.elseBranch

/-- The statement that has the given parts. -/
def Loop.toStatement (l : Loop) : Statement := .loop l.test l.body

/-- The statement that runs a sequence. -/
def Block.toStatement (b : Block) : Statement := .block b.members

/-! ## Declarations and programs -/

/-- The binding of one variable to one type. A source line that declares several variables stands
for several of these. -/
structure Declaration where
  ty : VarType
  declared : Variable
deriving DecidableEq, Repr, Inhabited

/-- A complete program: what it declares and what it does. -/
structure Program where
  declarations : List Declaration
  body : Block
deriving DecidableEq, Repr, Inhabited

/-- The declared names, in source order. -/
def Program.declaredNames (p : Program) : List String :=
  p.declarations.map (·.declared.name)

end Kay
