import Kay.Program.Layout

/-!
# Normal form

A program has one canonical text, but one text can be that of two programs: where an `else` would
go astray, braces are written that the tree does not have. The normal form of a program has these
braces in the tree (`Program.normalized`). It is written as the same text (`text_normalized`), with
the same nesting, and a normal program is its own normal form.

The conditions under which a program can be read back concern its names, operators and integers one
at a time. A `Vocabulary` says what these may be; being `Over` a vocabulary is inherited by all
parts, and normalizing adds nothing that would have to be in it.
-/

namespace Kay

/-! ## Vocabularies -/

/-- What the names, operators and integers of a tree may be. -/
structure Vocabulary where
  name : String → Prop
  unary : String → Prop
  binary : String → Prop
  integer : Int → Prop

/-- Whether an expression keeps to a vocabulary. -/
def Expression.Over (V : Vocabulary) : Expression → Prop
  | .variable v => V.name v.name
  | .value (.integer n) => V.integer n.toInt
  | .value (.boolean _) => True
  | .unary op operand => V.unary op.lexeme ∧ operand.Over V
  | .binary op left right => V.binary op.lexeme ∧ left.Over V ∧ right.Over V

namespace Statement

mutual

/-- Whether a statement keeps to a vocabulary. -/
def Over (V : Vocabulary) : Statement → Prop
  | skip => True
  | assignment target source => V.name target.name ∧ source.Over V
  | conditional test thenBranch none => test.Over V ∧ thenBranch.Over V
  | conditional test thenBranch (some elseBranch) =>
    test.Over V ∧ thenBranch.Over V ∧ elseBranch.Over V
  | loop test body => test.Over V ∧ body.Over V
  | block members => MembersOver V members

/-- Whether statements keep to a vocabulary. -/
def MembersOver (V : Vocabulary) : List Statement → Prop
  | [] => True
  | m :: ms => m.Over V ∧ MembersOver V ms

end

end Statement

/-- Whether a program keeps to a vocabulary. -/
def Program.Over (V : Vocabulary) (p : Program) : Prop :=
  (∀ d ∈ p.declarations, V.name d.declared.name) ∧ Statement.MembersOver V p.body.members

/-! ## Nesting of the text -/

/-- The nesting of an operand, which is one more where it stands in parentheses. -/
def Expression.groupedNesting (parentheses : Bool) (nesting : Nat) : Nat :=
  if parentheses then nesting + 1 else nesting

/-- The largest number of parentheses that are open at once in the text of an expression. -/
def Expression.printedNesting : Expression → Nat
  | .variable _ | .value _ => 0
  | .unary _ operand =>
    groupedNesting (operand.isUnary || operand.isBinary) operand.printedNesting
  | .binary _ left right =>
    max (groupedNesting left.isBinary left.printedNesting)
      (groupedNesting right.isBinary right.printedNesting)

namespace Statement

mutual

/-- The largest number of statements, added braces and parentheses of expressions that are open at
once in the text of a statement. -/
def printedNesting : Statement → Nat
  | skip => 1
  | assignment _ source => source.printedNesting + 1
  | conditional test thenBranch none => max test.printedNesting thenBranch.printedNesting + 1
  | conditional test thenBranch (some elseBranch) =>
    max test.printedNesting (max
      (if thenBranch.endsWithOpenIf then thenBranch.printedNesting + 1
        else thenBranch.printedNesting)
      elseBranch.printedNesting) + 1
  | loop test body => max test.printedNesting body.printedNesting + 1
  | block members => printedNestingOf members + 1

/-- The nesting in the text of statements below each other. -/
def printedNestingOf : List Statement → Nat
  | [] => 0
  | m :: ms => max m.printedNesting (printedNestingOf ms)

end

end Statement

/-- The nesting in the text of a program. -/
def Program.printedNesting (p : Program) : Nat := Statement.printedNestingOf p.body.members

/-! ## Normal programs -/

namespace Statement

mutual

/-- A statement with braces around every first branch that an `else` could be taken from. -/
def normalized : Statement → Statement
  | skip => skip
  | assignment target source => assignment target source
  | conditional test thenBranch none => conditional test thenBranch.normalized none
  | conditional test thenBranch (some elseBranch) =>
    conditional test
      (if thenBranch.endsWithOpenIf then block [thenBranch.normalized] else thenBranch.normalized)
      (some elseBranch.normalized)
  | loop test body => loop test body.normalized
  | block members => block (normalizedMembers members)

/-- The normal forms of statements. -/
def normalizedMembers : List Statement → List Statement
  | [] => []
  | m :: ms => m.normalized :: normalizedMembers ms

end

mutual

/-- Whether no first branch of a statement could take an `else` from the conditional around it. -/
def Normal : Statement → Prop
  | skip | assignment _ _ => True
  | conditional _ thenBranch none => thenBranch.Normal
  | conditional _ thenBranch (some elseBranch) =>
    thenBranch.Normal ∧ thenBranch.endsWithOpenIf = false ∧ elseBranch.Normal
  | loop _ body => body.Normal
  | block members => MembersNormal members

/-- Whether statements are normal. -/
def MembersNormal : List Statement → Prop
  | [] => True
  | m :: ms => m.Normal ∧ MembersNormal ms

end

/-! ## The normal form of a statement -/

theorem isBlock_normalized (s : Statement) : s.normalized.isBlock = s.isBlock := by
  cases s with
  | conditional test thenBranch elseBranch => cases elseBranch <;> rfl
  | skip | assignment | loop | block => rfl

/-- Braces are added inside a statement only, never around its last part. -/
theorem endsWithOpenIf_normalized : ∀ s : Statement,
    s.normalized.endsWithOpenIf = s.endsWithOpenIf
  | skip | assignment _ _ | block _ | conditional _ _ none => rfl
  | conditional _ _ (some e) => endsWithOpenIf_normalized e
  | loop _ body => endsWithOpenIf_normalized body

mutual

theorem normal_normalized : ∀ s : Statement, s.normalized.Normal
  | skip | assignment _ _ => trivial
  | conditional _ t none => normal_normalized t
  | conditional _ t (some e) => by
    have ht := normal_normalized t
    have he := normal_normalized e
    rw [normalized]
    split
    · exact ⟨⟨ht, trivial⟩, rfl, he⟩
    · next hopen =>
      refine ⟨ht, ?_, he⟩
      rwa [endsWithOpenIf_normalized, ← Bool.not_eq_true]
  | loop _ body => normal_normalized body
  | block ms => membersNormal_normalizedMembers ms

theorem membersNormal_normalizedMembers : ∀ ms, MembersNormal (normalizedMembers ms)
  | [] => trivial
  | m :: ms => ⟨normal_normalized m, membersNormal_normalizedMembers ms⟩

end

mutual

/-- A normal statement is its own normal form. -/
theorem Normal.normalized_eq : ∀ {s : Statement}, s.Normal → s.normalized = s
  | skip, _ | assignment _ _, _ => rfl
  | conditional _ t none, h => by rw [normalized, Normal.normalized_eq (s := t) h]
  | conditional _ _ (some _), ⟨ht, hopen, he⟩ => by
    rw [normalized, if_neg (ne_true_of_eq_false hopen), Normal.normalized_eq ht,
      Normal.normalized_eq he]
  | loop _ body, h => by rw [normalized, Normal.normalized_eq (s := body) h]
  | block _, h => by rw [normalized, MembersNormal.normalizedMembers_eq h]

theorem MembersNormal.normalizedMembers_eq : ∀ {ms}, MembersNormal ms → normalizedMembers ms = ms
  | [], _ => rfl
  | _ :: _, ⟨hm, hms⟩ => by
    rw [normalizedMembers, Normal.normalized_eq hm, MembersNormal.normalizedMembers_eq hms]

end

mutual

theorem over_normalized {V : Vocabulary} : ∀ s : Statement, s.normalized.Over V ↔ s.Over V
  | skip | assignment _ _ => Iff.rfl
  | conditional _ t none => and_congr_right fun _ ↦ over_normalized t
  | conditional _ t (some e) => by
    rw [normalized]
    split
    · exact and_congr_right fun _ ↦
        and_congr ((and_iff_left trivial).trans (over_normalized t)) (over_normalized e)
    · exact and_congr_right fun _ ↦ and_congr (over_normalized t) (over_normalized e)
  | loop _ body => and_congr_right fun _ ↦ over_normalized body
  | block ms => membersOver_normalizedMembers ms

theorem membersOver_normalizedMembers {V : Vocabulary} :
    ∀ ms, MembersOver V (normalizedMembers ms) ↔ MembersOver V ms
  | [] => Iff.rfl
  | m :: ms => and_congr (over_normalized m) (membersOver_normalizedMembers ms)

end

mutual

/-- The braces count before they are in the tree. -/
theorem printedNesting_normalized : ∀ s : Statement,
    s.normalized.printedNesting = s.printedNesting
  | skip | assignment _ _ => rfl
  | conditional _ t none => by rw [normalized, printedNesting, printedNesting_normalized t]; rfl
  | conditional _ t (some e) => by
    have ht := printedNesting_normalized t
    have he := printedNesting_normalized e
    rw [normalized, printedNesting, printedNesting]
    split
    · rw [he, printedNesting, printedNestingOf, printedNestingOf, ht, Nat.max_zero]
      rfl
    · next hopen => rw [he, endsWithOpenIf_normalized, if_neg hopen, ht]
  | loop _ body => by rw [normalized, printedNesting, printedNesting_normalized body]; rfl
  | block ms => by rw [normalized, printedNesting, printedNestingOf_normalizedMembers ms]; rfl

theorem printedNestingOf_normalizedMembers : ∀ ms,
    printedNestingOf (normalizedMembers ms) = printedNestingOf ms
  | [] => rfl
  | m :: ms => by
    rw [normalizedMembers, printedNestingOf, printedNesting_normalized m,
      printedNestingOf_normalizedMembers ms]
    rfl

end

mutual

/-- The normal form is written as the statement itself. -/
theorem unindented_normalized : ∀ (s : Statement) (level : Nat),
    s.normalized.unindented level = s.unindented level
  | skip, _ | assignment _ _, _ => rfl
  | conditional _ t none, level => by
    rw [normalized, unindented, unindented, asBranch, asBranch, isBlock_normalized,
      unindented_normalized t, unindented_normalized t]
  | conditional b t (some e), level => by
    have ht := unindented_normalized t
    have he := unindented_normalized e
    have hbranch : asBranch level e.normalized (unindented e.normalized) =
        asBranch level e (unindented e) := by
      rw [asBranch, asBranch, isBlock_normalized, he, he]
    rw [normalized, unindented, unindented, hbranch]
    congr 2
    split
    · -- The braces that the text adds are those of the normal form.
      next hopen =>
      have hblock : (block [t.normalized]).isBlock = true := rfl
      rw [beforeElse, beforeElse, if_pos hopen, endsWithOpenIf, if_neg (by decide), if_pos hblock,
        asBranch, if_pos hblock, unindented, ht, linesOf]
      simp only [String.append_assoc, String.empty_append]
      rfl
    · next hopen =>
      rw [beforeElse, beforeElse, endsWithOpenIf_normalized, if_neg hopen, if_neg hopen,
        isBlock_normalized, asBranch, asBranch, isBlock_normalized, ht, ht]
  | loop _ body, level => by
    rw [normalized, unindented, unindented, asBranch, asBranch, isBlock_normalized,
      unindented_normalized body, unindented_normalized body]
  | block [], _ => rfl
  | block (m :: ms), level => by
    rw [normalized, normalizedMembers, unindented, unindented, unindented_normalized m,
      linesOf_normalizedMembers ms]

theorem linesOf_normalizedMembers : ∀ (ms : List Statement) (level : Nat),
    linesOf (normalizedMembers ms) level = linesOf ms level
  | [], _ => rfl
  | m :: ms, level => by
    rw [normalizedMembers, linesOf, linesOf, unindented_normalized m, linesOf_normalizedMembers ms]

end

end Statement

/-! ## The normal form of a program -/

namespace Program

/-- A program with the braces in the tree that its text has. -/
def normalized (p : Program) : Program :=
  ⟨p.declarations, ⟨Statement.normalizedMembers p.body.members⟩⟩

/-- Whether the text of a program has no braces that the tree does not have. -/
def Normal (p : Program) : Prop := Statement.MembersNormal p.body.members

theorem normal_normalized (p : Program) : p.normalized.Normal :=
  Statement.membersNormal_normalizedMembers _

/-- A normal program is its own normal form. -/
theorem Normal.normalized_eq {p : Program} (h : p.Normal) : p.normalized = p := by
  rw [normalized, Statement.MembersNormal.normalizedMembers_eq h]

theorem over_normalized {V : Vocabulary} {p : Program} : p.normalized.Over V ↔ p.Over V :=
  and_congr_right fun _ ↦ Statement.membersOver_normalizedMembers _

theorem printedNesting_normalized (p : Program) :
    p.normalized.printedNesting = p.printedNesting :=
  Statement.printedNestingOf_normalizedMembers _

/-- A program and its normal form have the same text. -/
theorem text_normalized (p : Program) (level : Nat) : p.normalized.text level = p.text level := by
  rw [text, text, normalized, Statement.linesOf_normalizedMembers]

end Program

end Kay
