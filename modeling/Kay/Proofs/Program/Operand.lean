import Kay.Proofs.Grammar.Program
import Kay.Proofs.Program.Derived

/-!
# Nothing but a readable expression is read

What a run over the terminals of any expression shows, if it succeeds: that the expression is
readable, and that there is room for the nesting of its text.

The grammar is of no use here, because it leaves open where a phrase ends. The parser does not.
Every operand in a canonical text is a negation, so a run over the text of an expression can be
followed from one operand to the next (`Rule.exists_yields_right`). If an operator or an integer on
the way is not readable, the run fails there, or it stops at an operator, with which nothing can go
on. The induction carries this for an expression in each of its positions (`Expression.Checked`).
-/

namespace Kay

open Grammar

namespace Rule

variable {g : Rule Expression} {s s' s₁ : Stream} {e e₁ : Expression} {l : Level}

/-! ## Operands -/

private theorem not_yields_factor_of_operator (h : s.current.kind = .operator) :
    ¬ Yields (factor g) s e s' := by
  intro hread
  rcases factor_cases hread with ⟨t, rfl, ht⟩ | ⟨ht, -⟩
  · have hkind : t.terminal.kind = .operator := h
    cases hterminal : t.terminal with
    | mk kind text =>
      rw [hterminal] at ht hkind
      cases ht <;> exact absurd hkind (by simp)
  · exact absurd ((Token.kind_eq ht).symm.trans h) (by decide)

private theorem not_yields_negation_of_operator {op : String}
    (h : s.current.terminal = .operator op) (hop : op ≠ "!") : ¬ Yields (negation g) s e s' := by
  rw [yields_negation, if_neg]
  · exact not_yields_factor_of_operator (Token.kind_eq h)
  · rw [h]
    simpa using hop

private theorem exists_yields_tighter (hadv : Advances g) (hl : l.associates = true ∨ l = .relation)
    (h : Yields (level l g) s e s') : ∃ e₁ s₁, Yields (level l.tighter g) s e₁ s₁ := by
  rcases hl with hl | rfl
  · rw [level_of_associates hl] at h
    obtain ⟨first, s₁, -, hfirst, -⟩ := (yields_leftAssociative (advances_level hadv _)).mp h
    exact ⟨first, s₁, hfirst⟩
  · obtain ⟨left, s₁, hleft, -⟩ := yields_nonAssociative.mp h
    exact ⟨left, s₁, hleft⟩

private theorem exists_yields_level (hadv : Advances g) (hl : l ≠ .factor)
    (h : Yields (level .disjunction g) s e s') : ∃ e₁ s₁, Yields (level l g) s e₁ s₁ := by
  refine Level.descend (P := fun l ↦ ∃ e₁ s₁, Yields (level l g) s e₁ s₁) ⟨e, s', h⟩ ?_ hl
  rintro l hbinary ⟨e₁, s₁, h₁⟩
  exact exists_yields_tighter hadv hbinary h₁

private theorem exists_yields_negation (hadv : Advances g) (hl : l ≠ .factor)
    (h : Yields (level l g) s e s') : ∃ e₁ s₁, Yields (negation g) s e₁ s₁ := by
  revert e s'
  refine Level.ascend (P := fun l ↦ ∀ {e s'}, Yields (level l g) s e s' →
    ∃ e₁ s₁, Yields (negation g) s e₁ s₁) (fun h ↦ ⟨_, _, h⟩) ?_ hl
  intro l hbinary ih e s' h
  obtain ⟨e₁, s₁, h₁⟩ := exists_yields_tighter hadv hbinary h
  exact ih h₁

private theorem yields_level_of_tighter (hadv : Advances g)
    (hl : l.associates = true ∨ l = .relation) (h : Yields (level l.tighter g) s e s')
    (hs' : s'.current.isOperatorIn (continuing l) = false) : Yields (level l g) s e s' := by
  rcases hl with hl | rfl
  · have hstop := isOperatorIn_eq_false_of_subset (operators_subset_continuing hl) hs'
    rw [level_of_associates hl]
    exact (yields_leftAssociative (advances_level hadv _)).mpr
      ⟨e, s', [], h, .stop (operandItem_eq_none_iff.mpr hstop), rfl⟩
  · have hstop := isOperatorIn_eq_false_of_subset (List.subset_append_left _ _) hs'
    refine yields_nonAssociative.mpr ⟨e, s', h, ?_⟩
    rw [if_neg (ne_true_of_eq_false hstop)]
    exact ⟨rfl, rfl⟩

/-- An operand that no operator continues is read alike at every level. -/
private theorem yields_level_of_negation (hadv : Advances g) (hl : l ≠ .factor)
    (h : Yields (negation g) s e s') (hs' : s'.current.isOperatorIn (continuing l) = false) :
    Yields (level l g) s e s' := by
  revert hs'
  refine Level.ascend (P := fun l ↦ s'.current.isOperatorIn (continuing l) = false →
    Yields (level l g) s e s') (fun _ ↦ h) ?_ hl
  intro l hbinary ih hs'
  have htighter := isOperatorIn_eq_false_of_subset (continuing_tighter_subset l) hs'
  exact yields_level_of_tighter hadv hbinary (ih htighter) hs'

/-- Every operator at which an expression can go on is tried by some level. -/
private theorem exists_level_of_mem_continuing {op : String} (h : op ∈ continuing .disjunction) :
    ∃ l : Level, op ∉ continuing l.tighter ∧
      (l.associates = true ∧ op ∈ l.operators ∨ l = .relation ∧ op ∈ Operator.relations) := by
  have hall : ∀ o ∈ continuing .disjunction,
      ∃ l ∈ [Level.disjunction, .conjunction, .relation, .addition, .term],
        o ∉ continuing l.tighter ∧
          (l.associates = true ∧ o ∈ l.operators ∨ l = .relation ∧ o ∈ Operator.relations) := by
    decide
  obtain ⟨l, -, hl⟩ := hall op h
  exact ⟨l, hl⟩

/-- If an expression is read as a whole although an operator follows its first operand, then the
operator has an operand on its right. -/
theorem exists_yields_right {op : String} (hadv : Advances g) (hfirst : Yields (negation g) s e₁ s₁)
    (hop : s₁.current.terminal = .operator op) (h : Yields (level .disjunction g) s e s')
    (hs' : s'.current.kind ≠ .operator) :
    op ∈ continuing .disjunction ∧ ∃ e₂ s₂, Yields (negation g) s₁.advance e₂ s₂ := by
  have hclimb {l : Level} (hl : l ≠ .factor) (hmem : op ∉ continuing l) :
      Yields (level l g) s e₁ s₁ :=
    yields_level_of_negation hadv hl hfirst
      (by rw [isOperatorIn_of_terminal hop, decide_eq_false hmem])
  by_cases hmem : op ∈ continuing .disjunction
  · -- The level that tries the operator has read the first operand alone before it.
    refine ⟨hmem, ?_⟩
    obtain ⟨l, hnot, ⟨hl, hmeml⟩ | ⟨rfl, hmeml⟩⟩ := exists_level_of_mem_continuing hmem
    · obtain ⟨hne, hfactor⟩ := Level.ne_factor_of_binary (.inl hl)
      obtain ⟨e', s₃, hlevel⟩ := exists_yields_level hadv hne h
      rw [level_of_associates hl] at hlevel
      obtain ⟨left, t, others, hleft, hothers, -⟩ :=
        (yields_leftAssociative (advances_level hadv _)).mp hlevel
      obtain ⟨rfl, rfl⟩ := hleft.unique (hclimb hfactor hnot)
      cases hothers with
      | stop hnone =>
        rw [operandItem_eq_none_iff, isOperatorIn_of_terminal hop, decide_eq_true hmeml] at hnone
        exact absurd hnone (by decide)
      | step hitem hright =>
        exact exists_yields_negation hadv hfactor ((yields_operandItem hitem).2.mp hright).2
    · obtain ⟨e', s₃, hlevel⟩ := exists_yields_level hadv (l := .relation) (by decide) h
      obtain ⟨left, t, hleft, hrest⟩ := yields_nonAssociative.mp hlevel
      obtain ⟨rfl, rfl⟩ := hleft.unique (hclimb (l := .addition) (by decide) hnot)
      rw [isOperatorIn_of_terminal hop, decide_eq_true hmeml, if_pos rfl] at hrest
      obtain ⟨right, hright, -⟩ := hrest
      exact exists_yields_negation hadv (l := .addition) (by decide) hright
  · -- No level tries the operator, so the expression ends in front of it.
    obtain ⟨rfl, rfl⟩ := h.unique (hclimb (l := .disjunction) (by decide) hmem)
    exact absurd (Token.kind_eq hop) hs'

end Rule

/-! ## Expressions -/

namespace Expression

open Rule

variable {x : Expression}

/-- That a run over the terminals of an expression shows that the expression is readable and that
there is room for its nesting, if it leaves no operator. -/
def CheckedAlone (x : Expression) : Prop :=
  ∀ ⦃depth room : Nat⦄ ⦃w : List Token⦄ ⦃s' s'' : Stream⦄ ⦃e : Expression⦄,
    w.map Token.terminal = x.terminals → s''.current.kind ≠ .operator →
    Yields (expression depth room) (s'.prepend w) e s'' →
    x.Over .readable ∧ x.printedNesting ≤ room

/-- The same of a rule for operands, and whatever is left. -/
def CheckedBy (p : Rule Expression → Rule Expression) (parentheses : Bool) (x : Expression) :
    Prop :=
  ∀ ⦃depth room : Nat⦄ ⦃w : List Token⦄ ⦃s' s'' : Stream⦄ ⦃e : Expression⦄,
    w.map Token.terminal = groupedTerminals parentheses x.terminals →
    Yields (p (group depth room)) (s'.prepend w) e s'' →
    x.Over .readable ∧ groupedNesting parentheses x.printedNesting ≤ room

/-- That an expression is checked wherever it stands. -/
structure Checked (x : Expression) : Prop where
  alone : CheckedAlone x
  operand : CheckedBy negation x.isBinary x
  negated : CheckedBy factor (x.isUnary || x.isBinary) x

private theorem yields_operand {depth room : Nat} {w : List Token} {s' : Stream}
    (h : x.Over .readable) (hn : groupedNesting x.isBinary x.printedNesting ≤ room)
    (hw : w.map Token.terminal = groupedTerminals x.isBinary x.terminals) :
    Yields (negation (group depth room)) (s'.prepend w) x s' :=
  (reads_of_derives (derives_positions h).2.1 depth room hn).1 hw
    (by simp [continuing, Token.isOperatorIn])

theorem CheckedAlone.group (h : CheckedAlone x) : CheckedBy factor true x := by
  intro depth room w s' s'' e hw hread
  obtain ⟨o, w₁, rfl, ho, hw₁⟩ := List.map_eq_cons_iff.mp hw
  obtain ⟨w₂, w₃, rfl, hw₂, hw₃⟩ := List.map_eq_append_iff.mp hw₁
  replace hread := (yields_factor_of_parenthesis ho).mp hread
  cases room with
  | zero => exact absurd hread not_yields_tooDeep
  | succ room =>
    obtain ⟨c, hc, he⟩ := yields_group_succ.mp hread
    rw [Stream.advance_prepend_cons, Stream.prepend_append] at he
    have hclose : (s''.prepend [c]).current.kind ≠ .operator := by
      rw [Stream.current_prepend_cons, Token.kind_eq hc]
      decide
    obtain ⟨hover, hn⟩ := h hw₂ hclose he
    exact ⟨hover, Nat.succ_le_succ hn⟩

private theorem CheckedBy.negation_of_group (h : CheckedBy factor true x) :
    CheckedBy negation true x := by
  intro depth room w s' s'' e hw hread
  obtain ⟨o, w₁, rfl, ho, -⟩ := List.map_eq_cons_iff.mp hw
  rw [yields_negation, Stream.current_prepend_cons, ho, if_neg (by simp)] at hread
  exact h hw hread

private theorem CheckedBy.alone (h : CheckedBy negation false x) : CheckedAlone x := by
  intro depth room w s' s'' e hw _ hread
  rw [expression_eq] at hread
  obtain ⟨e₁, s₁, h₁⟩ := exists_yields_negation (advances_group _ _) (by decide) hread
  exact h hw h₁

private theorem checked_variable (v : Variable) : (Expression.variable v).Checked where
  alone _ _ _ _ _ _ _ _ _ := ⟨trivial, Nat.zero_le _⟩
  operand _ _ _ _ _ _ _ _ := ⟨trivial, Nat.zero_le _⟩
  negated _ _ _ _ _ _ _ _ := ⟨trivial, Nat.zero_le _⟩

/-- No operand starts with the minus sign of a negative integer. -/
private theorem checked_value (v : Value) : (value v).Checked := by
  have hminus : (value v).Over .readable ∨ ∃ ts, v.terminals = .operator "-" :: ts := by
    rcases v with n | b
    · rw [Value.terminals]
      split
      · next k hk =>
        refine .inl ?_
        show 0 ≤ n.toInt
        rw [hk]
        exact Int.natCast_nonneg k
      · exact .inr ⟨_, rfl⟩
    · exact .inl trivial
  have hnegation : CheckedBy negation false (value v) := by
    intro depth room w s' s'' e hw hread
    rcases hminus with hv | ⟨ts, hts⟩
    · exact ⟨hv, Nat.zero_le _⟩
    · obtain ⟨t, w₁, rfl, ht, -⟩ := List.map_eq_cons_iff.mp (hw.trans hts)
      exact absurd hread (not_yields_negation_of_operator ht (by decide))
  have hfactor : CheckedBy factor false (value v) := by
    intro depth room w s' s'' e hw hread
    rcases hminus with hv | ⟨ts, hts⟩
    · exact ⟨hv, Nat.zero_le _⟩
    · obtain ⟨t, w₁, rfl, ht, -⟩ := List.map_eq_cons_iff.mp (hw.trans hts)
      exact absurd hread (not_yields_factor_of_operator (Token.kind_eq ht))
  exact ⟨hnegation.alone, hnegation, hfactor⟩

/-- Of the operators, `!` alone starts an operand. -/
private theorem checked_unary {op : Operator} (hx : x.Checked) : (unary op x).Checked := by
  have hnegation : CheckedBy negation false (unary op x) := by
    intro depth room w s' s'' e hw hread
    by_cases hop : op.lexeme = "!"
    · have hterminals : (unary op x).terminals = .operator "!" ::
          groupedTerminals (x.isUnary || x.isBinary) x.terminals := by
        rw [terminals, Operator.terminals, hop]
        rfl
      obtain ⟨t, w₁, rfl, ht, hw₁⟩ := List.map_eq_cons_iff.mp (hw.trans hterminals)
      rw [yields_negation, Stream.current_prepend_cons, if_pos ht] at hread
      obtain ⟨e', he', -⟩ := hread
      obtain ⟨hover, hn⟩ := hx.negated hw₁ he'
      exact ⟨⟨hop, hover⟩, hn⟩
    · obtain ⟨o, ts, hterminals, ho⟩ : ∃ o ts, (unary op x).terminals = .operator o :: ts ∧
          o ≠ "!" := by
        rw [terminals, Operator.terminals]
        split
        · exact ⟨"<", _, rfl, by decide⟩
        · exact ⟨op.lexeme, _, rfl, hop⟩
      obtain ⟨t, w₁, rfl, ht, -⟩ := List.map_eq_cons_iff.mp (hw.trans hterminals)
      exact absurd hread (not_yields_negation_of_operator ht ho)
  exact ⟨hnegation.alone, hnegation, hnegation.alone.group⟩

private theorem checked_binary {op : Operator} {y : Expression} (hx : x.Checked) (hy : y.Checked) :
    (binary op x y).Checked := by
  have halone : CheckedAlone (binary op x y) := by
    intro depth room w s' s'' e hw hs'' hread
    obtain ⟨w₁, w', rfl, hw₁, hw'⟩ := List.map_eq_append_iff.mp hw
    obtain ⟨w₂, w₃, rfl, hw₂, hw₃⟩ := List.map_eq_append_iff.mp hw'
    have hadv := advances_group depth room
    rw [expression_eq, Stream.prepend_append] at hread
    obtain ⟨e₁, s₁, hfirst⟩ := exists_yields_negation hadv (by decide) hread
    obtain ⟨hoverx, hnx⟩ := hx.operand hw₁ hfirst
    have hleft : Yields (negation (group depth room)) ((s'.prepend (w₂ ++ w₃)).prepend w₁) x
        (s'.prepend (w₂ ++ w₃)) := yields_operand hoverx hnx hw₁
    rw [Operator.terminals] at hw₂
    split at hw₂
    · -- The two signs of `<>` are two operators, and no operand starts with the second.
      obtain ⟨t, w₄, rfl, ht, hw₄⟩ := List.map_eq_cons_iff.mp hw₂
      obtain ⟨t', rfl, ht'⟩ := List.map_eq_singleton_iff.mp hw₄
      obtain ⟨-, e₂, s₂, hright⟩ := exists_yields_right hadv hleft ht hread hs''
      exact absurd hright (not_yields_negation_of_operator ht' (by decide))
    · next hne =>
      obtain ⟨t, rfl, ht⟩ := List.map_eq_singleton_iff.mp hw₂
      obtain ⟨hmem, e₂, s₂, hright⟩ := exists_yields_right hadv hleft ht hread hs''
      obtain ⟨hovery, hny⟩ := hy.operand hw₃ hright
      refine ⟨⟨?_, hoverx, hovery⟩, max_le hnx hny⟩
      have hall : ∀ o ∈ continuing .disjunction, o = "<>" ∨
          o ∈ ["||", "&&", "<", "<=", ">", ">=", "==", "!=", "+", "-", "*", "/"] := by decide
      exact (hall _ hmem).resolve_left hne
  exact ⟨halone, halone.group.negation_of_group, halone.group⟩

theorem checked (x : Expression) : x.Checked := by
  induction x with
  | «variable» v => exact checked_variable v
  | value v => exact checked_value v
  | unary op operand ih => exact checked_unary ih
  | binary op left right ihl ihr => exact checked_binary ihl ihr

end Expression

end Kay
