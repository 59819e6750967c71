import Kay.Program.Layout

/-!
# Outlines

A tree shown as a tree: one node a line, children one level deeper than their parent. An `Else`
stands at the level of its conditional, and the branch behind it one level deeper again. There are
no brackets; the levels alone carry the structure.
-/

namespace Kay

open Text (indentation)

/-- A line of an outline. -/
structure OutlineLine where
  level : Nat
  text : String
deriving DecidableEq, Repr

/-- Lines of an outline as text, each with its line feed. -/
def OutlineLine.join (lines : List OutlineLine) : String :=
  String.join (lines.map fun l ↦ indentation l.level ++ l.text ++ "\n")

/-- The line of a variable. -/
def Variable.outlineLine (v : Variable) (level : Nat) : OutlineLine :=
  ⟨level, "Variable: " ++ v.name⟩

/-- The lines of an expression. -/
def Expression.outlineLines : Expression → Nat → List OutlineLine
  | .variable v, level => [v.outlineLine level]
  | .value v, level => [⟨level, "Value: " ++ v.text⟩]
  | .unary op operand, level =>
    ⟨level, "Unary: " ++ op.lexeme⟩ :: operand.outlineLines (level + 1)
  | .binary op left right, level =>
    ⟨level, "Binary: " ++ op.lexeme⟩ ::
      (left.outlineLines (level + 1) ++ right.outlineLines (level + 1))

mutual

/-- The lines of a statement. -/
def Statement.outlineLines : Statement → Nat → List OutlineLine
  | .skip, level => [⟨level, "Skip"⟩]
  | .assignment target source, level =>
    ⟨level, "Assignment"⟩ :: target.outlineLine (level + 1) :: source.outlineLines (level + 1)
  | .conditional test thenBranch none, level =>
    ⟨level, "Conditional"⟩ ::
      (test.outlineLines (level + 1) ++ thenBranch.outlineLines (level + 1))
  | .conditional test thenBranch (some elseBranch), level =>
    ⟨level, "Conditional"⟩ ::
      (test.outlineLines (level + 1) ++ thenBranch.outlineLines (level + 1) ++
        ⟨level, "Else"⟩ :: elseBranch.outlineLines (level + 1))
  | .loop test body, level =>
    ⟨level, "Loop"⟩ :: (test.outlineLines (level + 1) ++ body.outlineLines (level + 1))
  | .block members, level => ⟨level, "Block"⟩ :: Statement.membersOutline members (level + 1)

/-- The lines of statements in sequence. -/
def Statement.membersOutline : List Statement → Nat → List OutlineLine
  | [], _ => []
  | m :: ms, level => m.outlineLines level ++ Statement.membersOutline ms level

end

/-- The line of a declaration. -/
def Declaration.outlineLine (d : Declaration) (level : Nat) : OutlineLine :=
  ⟨level, "Declaration: " ++ d.ty.name ++ " " ++ d.declared.name⟩

/-- The lines of a program. -/
def Program.outlineLines (p : Program) : List OutlineLine :=
  ⟨0, "Program"⟩ :: ⟨1, "Declarations"⟩ ::
    (p.declarations.map (·.outlineLine 2) ++ (Statement.block p.body.members).outlineLines 1)

/-- The outline of a program. -/
def Program.outline (p : Program) : String := OutlineLine.join p.outlineLines

/-- The outline of an expression. -/
def Expression.outline (e : Expression) : String := OutlineLine.join (e.outlineLines 0)

end Kay
