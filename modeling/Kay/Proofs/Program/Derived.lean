import Kay.Proofs.Grammar.Level
import Kay.Proofs.Program.Spelling

/-!
# Readable trees are derived from their terminals

Which trees have a source text at all: integers must not be negative, `!` is the only operator in
front of an operand, and between operands stand those of the five binary levels
(`Vocabulary.readable`). A normal tree over this vocabulary is derived by the grammar from the
terminals of its text, with exactly the nesting that the text shows (`derives_terminals`).

An operand is written in parentheses unless it is atomic or a negation. It is therefore a negation
in the sense of the grammar wherever it stands, and a level needs to know nothing about the levels
of its operands.
-/

namespace Kay

open Grammar Text

/-- What a tree may hold that has a source text, its names apart. -/
def Vocabulary.readable : Vocabulary where
  name _ := True
  unary op := op = "!"
  binary op := op ∈ ["||", "&&", "<", "<=", ">", ">=", "==", "!=", "+", "-", "*", "/"]
  integer n := 0 ≤ n

/-! ## Levels -/

theorem exists_level {op : String} (h : Vocabulary.readable.binary op) :
    ∃ l : Level, op ∈ l.operators ∧ (l.associates = true ∨ l = .relation) := by
  have hall : ∀ o ∈ ["||", "&&", "<", "<=", ">", ">=", "==", "!=", "+", "-", "*", "/"],
      o ∈ Level.disjunction.operators ∨ o ∈ Level.conjunction.operators ∨
        o ∈ Level.relation.operators ∨ o ∈ Level.addition.operators ∨
        o ∈ Level.term.operators := by decide
  rcases hall op h with h | h | h | h | h
  · exact ⟨_, h, .inl rfl⟩
  · exact ⟨_, h, .inl rfl⟩
  · exact ⟨_, h, .inr rfl⟩
  · exact ⟨_, h, .inl rfl⟩
  · exact ⟨_, h, .inl rfl⟩

namespace Grammar.DerivesExpression

variable {l : Level} {w : List Terminal} {e : Expression} {n : Nat}

private theorem binary {op : String} {u v : List Terminal} {f : Expression} {m : Nat}
    (hop : Vocabulary.readable.binary op) (he : DerivesExpression .negation u e m)
    (hf : DerivesExpression .negation v f n) :
    DerivesExpression .disjunction (u ++ .operator op :: v) (.binary ⟨op⟩ e f) (max m n) := by
  obtain ⟨l, hmem, hl | rfl⟩ := exists_level hop
  · obtain ⟨hne, htighter⟩ := Level.ne_factor_of_binary (.inl hl)
    exact to_disjunction (.chain hl hmem (of_negation he hne) (of_negation hf htighter))
  · exact to_disjunction
      (.compare hmem (of_negation he (by decide)) (of_negation hf (by decide)))

end Grammar.DerivesExpression

/-! ## Expressions -/

private theorem Operator.terminals_of_readable {op : Operator}
    (h : Vocabulary.readable.binary op.lexeme) : op.terminals = [.operator op.lexeme] := by
  have hne : ¬ Vocabulary.readable.binary "<>" := by simp [Vocabulary.readable]
  rw [Operator.terminals, if_neg]
  intro heq
  exact hne (heq ▸ h)

namespace Expression

/-- A nonnegative integer is what its numeral stands for. -/
theorem atom_digits {n : Int32} {k : Nat} (h : n.toInt = Int.ofNat k) :
    Atom (.literal (String.ofList (Decimal.digits k))) (.value (.integer n)) := by
  have hvalue : decimalValue (String.ofList (Decimal.digits k)) = k := by
    rw [← Rule.value_toList, String.toList_ofList, Decimal.value_digits]
  have hlt := n.toInt_lt
  rw [h] at hlt
  have hk : k ≤ 2147483647 := by
    have hlt' : (k : Int) < 2147483648 := hlt
    omega
  have hn : Int32.ofNat (decimalValue (String.ofList (Decimal.digits k))) = n := by
    rw [hvalue, ← Int32.ofInt_toInt n, h]
    rfl
  rw [← hn]
  exact .literal (by rw [hvalue]; exact hk)

private theorem derives_value {v : Value} (h : (value v).Over .readable) :
    DerivesExpression .factor v.terminals (.value v) 0 := by
  rcases v with n | b
  · have hn : 0 ≤ n.toInt := h
    rw [Value.terminals]
    split
    · next k hk => exact .atom (atom_digits hk)
    · next k hk =>
      rw [hk] at hn
      exact absurd hn (by simp)
  · cases b with
    | true => exact .atom .true
    | false => exact .atom .false

variable {x : Expression}

/-- A readable expression is derived wherever it stands: alone, as an operand of an operator between
two, and behind `!`. -/
theorem derives_positions (h : x.Over .readable) :
    DerivesExpression .disjunction x.terminals x x.printedNesting ∧
    DerivesExpression .negation (groupedTerminals x.isBinary x.terminals) x
      (groupedNesting x.isBinary x.printedNesting) ∧
    DerivesExpression .factor (groupedTerminals (x.isUnary || x.isBinary) x.terminals) x
      (groupedNesting (x.isUnary || x.isBinary) x.printedNesting) := by
  induction x with
  | «variable» v =>
    have hfactor : DerivesExpression .factor [.identifier v.name] (.variable v) 0 :=
      .atom (.reference v.name)
    exact ⟨hfactor.to_disjunction, .operand (by decide) hfactor, hfactor⟩
  | value v =>
    have hfactor := derives_value h
    exact ⟨hfactor.to_disjunction, .operand (by decide) hfactor, hfactor⟩
  | unary op operand ih =>
    obtain ⟨lexeme⟩ := op
    obtain rfl : lexeme = "!" := h.1
    have hnegation := DerivesExpression.not (ih h.2).2.2
    exact ⟨hnegation.to_disjunction, hnegation, .group hnegation.to_disjunction⟩
  | binary op left right ihl ihr =>
    have hbinary : DerivesExpression .disjunction (binary op left right).terminals
        (binary op left right) (binary op left right).printedNesting := by
      rw [terminals, Operator.terminals_of_readable h.1]
      exact .binary h.1 (ihl h.2.1).2.1 (ihr h.2.2).2.1
    exact ⟨hbinary, .operand (by decide) (.group hbinary), .group hbinary⟩

theorem derives_terminals (h : x.Over .readable) :
    DerivesExpression .disjunction x.terminals x x.printedNesting :=
  (derives_positions h).1

end Expression

/-! ## Statements -/

namespace Statement

mutual

theorem derives_terminals : ∀ {s : Statement}, s.Over .readable → s.Normal →
    DerivesStatement s.terminals s s.printedNesting
  | skip, _, _ => .skip
  | assignment x _, h, _ => .assignment x.name (Expression.derives_terminals h.2)
  | conditional _ t none, h, hn =>
    .ifThen (Expression.derives_terminals h.1) (derives_terminals (s := t) h.2 hn)
  | conditional b t (some e), h, hn => by
    have ht := derives_terminals h.2.1 hn.1
    have he := derives_terminals h.2.2 hn.2.2
    rw [terminals, printedNesting, if_neg (ne_true_of_eq_false hn.2.1)]
    exact .ifThenElse (Expression.derives_terminals h.1) ht hn.2.1 he
  | loop _ s, h, hn =>
    .loop (Expression.derives_terminals h.1) (derives_terminals (s := s) h.2 hn)
  | block ms, h, hn =>
    have hms : DerivesStatements (terminalsOf ms) ms (printedNestingOf ms) :=
      derives_terminalsOf h hn
    .block hms

private theorem derives_terminalsOf : ∀ {ms : List Statement}, MembersOver .readable ms →
    MembersNormal ms → DerivesStatements (terminalsOf ms) ms (printedNestingOf ms)
  | [], _, _ => .nil
  | _ :: _, h, hn => .cons (derives_terminals h.1 hn.1) (derives_terminalsOf h.2 hn.2)

end

end Statement

/-! ## Programs -/

theorem derives_declarations (ds : List Declaration) :
    DerivesDeclarations (ds.flatMap Declaration.terminals) ds := by
  induction ds with
  | nil => exact .nil
  | cons d ds ih =>
    obtain ⟨ty, ⟨name⟩⟩ := d
    exact .cons (.last name) ih

/-- A normal readable program is derived from its terminals, with the nesting that its text
shows. -/
theorem Program.derives_terminals {p : Program} (h : p.Over .readable) (hn : p.Normal) :
    DerivesProgram (p.terminals ++ [.endOfInput]) p p.printedNesting := by
  obtain ⟨ds, ⟨ms⟩⟩ := p
  have hprogram := DerivesProgram.intro (derives_declarations ds)
    (Statement.derives_terminalsOf h.2 hn)
  simpa [terminals, printedNesting] using hprogram

end Kay
