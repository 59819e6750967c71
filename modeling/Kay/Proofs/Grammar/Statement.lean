import Kay.Grammar.Statement
import Kay.Proofs.Grammar.Expression

/-!
# Statements are read as the grammar derives them

The rules of statements against the grammar, in the same two directions as for expressions.

A statement is told by its first token, so what is read is first said form by form. The one thing
that the tokens behind a statement decide is whether an `else` is part of it. On the way from a run
to a derivation this shows as a fact about what is left: behind a statement that ends in an open
`if` stands no `else`, since the innermost conditional would have read it. On the way back it is
the condition under which a derived statement is read alone.
-/

namespace Kay.Rule

open Grammar

variable {ex : Rule Expression} {st : Rule Statement} {s s' : Stream} {r : Statement}
  {e : Expression}

/-! ## What each form reads -/

theorem yields_guarded {word : String} {context : Context} :
    Yields (guarded word context ex) s e s' ↔ ∃ k o c s₁, k.terminal = .keyword word ∧
      o.terminal = .separator "(" ∧ c.terminal = .separator ")" ∧ s = s₁.prepend [k, o] ∧
      Yields ex s₁ e (s'.prepend [c]) := by
  rw [guarded, yields_bind]
  constructor
  · rintro ⟨k, s₂, hreadk, h₁⟩
    obtain ⟨o, s₁, hreado, h₂⟩ := yields_bind.mp h₁
    obtain ⟨e', s₃, he, h₃⟩ := yields_bind.mp h₂
    obtain ⟨c, s₄, hreadc, hpure⟩ := yields_bind.mp h₃
    obtain ⟨rfl, rfl⟩ := yields_pure.mp hpure
    obtain ⟨hk, rfl⟩ := (yields_expect_lexeme (by decide)).mp hreadk
    obtain ⟨ho, rfl⟩ := yields_expectSeparator.mp hreado
    obtain ⟨hc, rfl⟩ := yields_expectSeparator.mp hreadc
    exact ⟨k, o, c, s₁, hk, ho, hc, rfl, he⟩
  · rintro ⟨k, o, c, s₁, hk, ho, hc, rfl, he⟩
    refine ⟨k, s₁.prepend [o], (yields_expect_lexeme (by decide)).mpr ⟨hk, rfl⟩,
      yields_bind.mpr ⟨o, s₁, yields_expectSeparator.mpr ⟨ho, rfl⟩,
        yields_bind.mpr ⟨e, _, he, yields_bind.mpr ⟨c, s', ?_, ?_⟩⟩⟩⟩
    · exact yields_expectSeparator.mpr ⟨hc, rfl⟩
    · exact yields_pure.mpr ⟨rfl, rfl⟩

theorem yields_assignment : Yields (assignment ex) s r s' ↔ ∃ x a c s₁ e, x.kind = .identifier ∧
    a.terminal = .operator ":=" ∧ c.terminal = .separator ";" ∧ s = s₁.prepend [x, a] ∧
    Yields ex s₁ e (s'.prepend [c]) ∧ r = .assignment ⟨x.text⟩ e := by
  rw [assignment, yields_bind]
  constructor
  · rintro ⟨x, s₂, hreadx, h₁⟩
    obtain ⟨a, s₁, hreada, h₂⟩ := yields_bind.mp h₁
    obtain ⟨e, s₃, he, h₃⟩ := yields_bind.mp h₂
    obtain ⟨c, s₄, hreadc, hpure⟩ := yields_bind.mp h₃
    obtain ⟨rfl, rfl⟩ := yields_pure.mp hpure
    obtain ⟨hx, rfl⟩ := (yields_expect_kind (by decide)).mp hreadx
    obtain ⟨ha, rfl⟩ := (yields_expect_lexeme (by decide)).mp hreada
    obtain ⟨hc, rfl⟩ := yields_expectSeparator.mp hreadc
    exact ⟨x, a, c, s₁, e, hx, ha, hc, rfl, he, rfl⟩
  · rintro ⟨x, a, c, s₁, e, hx, ha, hc, rfl, he, rfl⟩
    refine ⟨x, s₁.prepend [a], (yields_expect_kind (by decide)).mpr ⟨hx, rfl⟩,
      yields_bind.mpr ⟨a, s₁, (yields_expect_lexeme (by decide)).mpr ⟨ha, rfl⟩,
        yields_bind.mpr ⟨e, _, he, yields_bind.mpr ⟨c, s', ?_, ?_⟩⟩⟩⟩
    · exact yields_expectSeparator.mpr ⟨hc, rfl⟩
    · exact yields_pure.mpr ⟨rfl, rfl⟩

/-- An `else` behind the first branch is always read. -/
theorem yields_conditional : Yields (conditional ex st) s r s' ↔ ∃ b s₁ t s₂,
    Yields (guarded "if" .ifStatement ex) s b s₁ ∧ Yields st s₁ t s₂ ∧
      if s₂.current.terminal = .keyword "else" then
        ∃ u, Yields st s₂.advance u s' ∧ r = .conditional b t (some u)
      else r = .conditional b t none ∧ s' = s₂ := by
  have helse : ∀ {t : Token}, t.isKeyword "else" = true ↔ t.terminal = .keyword "else" :=
    Token.is_iff
  rw [conditional, yields_bind]
  constructor
  · rintro ⟨b, s₁, hb, h⟩
    obtain ⟨t, s₂, ht, h⟩ := yields_bind.mp h
    refine ⟨b, s₁, t, s₂, hb, ht, ?_⟩
    rw [yields_current_bind] at h
    split at h
    · next hc =>
      rw [if_pos (helse.mp hc)]
      obtain ⟨u, s₃, hu, hpure⟩ := yields_bind.mp (yields_advance_bind.mp h)
      obtain ⟨rfl, rfl⟩ := yields_pure.mp hpure
      exact ⟨u, hu, rfl⟩
    · next hc =>
      rw [if_neg (mt helse.mpr hc)]
      exact yields_pure.mp h
  · rintro ⟨b, s₁, t, s₂, hb, ht, h⟩
    refine ⟨b, s₁, hb, yields_bind.mpr ⟨t, s₂, ht, yields_current_bind.mpr ?_⟩⟩
    split at h
    · next hc =>
      rw [if_pos (helse.mpr hc)]
      obtain ⟨u, hu, rfl⟩ := h
      exact yields_advance_bind.mpr (yields_bind.mpr ⟨u, s', hu, yields_pure.mpr ⟨rfl, rfl⟩⟩)
    · next hc =>
      rw [if_neg (mt helse.mp hc)]
      exact yields_pure.mpr h

theorem yields_loop : Yields (loop ex st) s r s' ↔ ∃ b s₁ t,
    Yields (guarded "while" .whileStatement ex) s b s₁ ∧ Yields st s₁ t s' ∧ r = .loop b t := by
  rw [loop, yields_bind]
  constructor
  · rintro ⟨b, s₁, hb, h⟩
    obtain ⟨t, s₂, ht, h⟩ := yields_bind.mp h
    obtain ⟨rfl, rfl⟩ := yields_pure.mp h
    exact ⟨b, s₁, t, hb, ht, rfl⟩
  · rintro ⟨b, s₁, t, hb, ht, rfl⟩
    exact ⟨b, s₁, hb, yields_bind.mpr ⟨t, s', ht, yields_pure.mpr ⟨rfl, rfl⟩⟩⟩

/-- One more statement, as `statements` asks for it. -/
def memberItem (st : Rule Statement) : Token → Option (Rule Statement) := fun t ↦
  if t.isSeparator "\x7d" || t.isEnd then none else some st

theorem memberItem_eq_none_iff {t : Token} : memberItem st t = none ↔
    t.terminal = .separator "\x7d" ∨ t.kind = .endOfInput := by
  rw [memberItem, ← Token.is_iff, ← Token.isSeparator]
  by_cases hend : t.kind = .endOfInput <;> simp [Token.isEnd, hend]

private theorem memberItem_eq_some {t : Token} (hclose : t.terminal ≠ .separator "\x7d")
    (hend : t.kind ≠ .endOfInput) : memberItem st t = some st := by
  rw [memberItem, if_neg]
  rw [Bool.or_eq_true, Token.isSeparator, Token.is_iff, Token.isEnd, decide_eq_true_eq]
  exact not_or.mpr ⟨hclose, hend⟩

theorem eq_of_memberItem_eq_some {t : Token} {p : Rule Statement}
    (h : memberItem st t = some p) : p = st := by
  rw [memberItem] at h
  split at h
  · exact absurd h (by simp)
  · exact (Option.some.inj h).symm

theorem yields_block (hst : Progressive (memberItem st)) : Yields (block st) s r s' ↔
    ∃ o c s₁ ms, o.terminal = .separator "\x7b" ∧ c.terminal = .separator "\x7d" ∧
      s = s₁.prepend [o] ∧ Repeats (memberItem st) s₁ ms (s'.prepend [c]) ∧ r = .block ms := by
  rw [block, yields_bind]
  constructor
  · rintro ⟨o, s₁, hreado, h₁⟩
    obtain ⟨ms, s₂, hms, h₂⟩ := yields_bind.mp h₁
    obtain ⟨c, s₃, hreadc, hpure⟩ := yields_bind.mp h₂
    obtain ⟨rfl, rfl⟩ := yields_pure.mp hpure
    obtain ⟨ho, rfl⟩ := yields_expectSeparator.mp hreado
    obtain ⟨hc, rfl⟩ := yields_expectSeparator.mp hreadc
    exact ⟨o, c, s₁, ms, ho, hc, rfl, (yields_many hst).mp hms, rfl⟩
  · rintro ⟨o, c, s₁, ms, ho, hc, rfl, hms, rfl⟩
    exact ⟨o, s₁, yields_expectSeparator.mpr ⟨ho, rfl⟩, yields_bind.mpr ⟨ms, s'.prepend [c],
      (yields_many hst).mpr hms, yields_bind.mpr ⟨c, s',
        yields_expectSeparator.mpr ⟨hc, rfl⟩, yields_pure.mpr ⟨rfl, rfl⟩⟩⟩⟩

/-- The first token tells which form of statement is read. -/
theorem yields_anyStatement : Yields (anyStatement ex st) s r s' ↔
    if s.current.terminal = .separator ";" then r = .skip ∧ s' = s.advance
    else if s.current.terminal = .separator "\x7b" then Yields (block st) s r s'
    else if s.current.terminal = .keyword "if" then Yields (conditional ex st) s r s'
    else if s.current.terminal = .keyword "while" then Yields (loop ex st) s r s'
    else Yields (assignment ex) s r s' := by
  have his : ∀ {t : Token} {kind : TokenKind} {text : String},
      (t.is kind text = true) = (t.terminal = ⟨kind, text⟩) := propext Token.is_iff
  rw [anyStatement, yields_current_bind]
  simp only [Token.isSeparator, Token.isKeyword, his]
  split
  · rw [yields_advance_bind, yields_pure]
  · split
    · rfl
    · split
      · rfl
      · split
        · rfl
        · split
          · rfl
          · next hkind =>
            refine iff_of_false not_yields_unexpected fun h ↦ hkind ?_
            obtain ⟨x, a, c, s₁, e, hx, -, -, rfl, -⟩ := yields_assignment.mp h
            exact hx

section

variable {t : Token} {ts : List Token}

theorem yields_anyStatement_of_brace (h : t.terminal = .separator "\x7b") :
    Yields (anyStatement ex st) (s.prepend (t :: ts)) r s' ↔
      Yields (block st) (s.prepend (t :: ts)) r s' := by
  rw [yields_anyStatement, Stream.current_prepend_cons, h]
  simp

theorem yields_anyStatement_of_if (h : t.terminal = .keyword "if") :
    Yields (anyStatement ex st) (s.prepend (t :: ts)) r s' ↔
      Yields (conditional ex st) (s.prepend (t :: ts)) r s' := by
  rw [yields_anyStatement, Stream.current_prepend_cons, h]
  simp

theorem yields_anyStatement_of_while (h : t.terminal = .keyword "while") :
    Yields (anyStatement ex st) (s.prepend (t :: ts)) r s' ↔
      Yields (loop ex st) (s.prepend (t :: ts)) r s' := by
  rw [yields_anyStatement, Stream.current_prepend_cons, h]
  simp

theorem yields_anyStatement_of_identifier {name : String} (h : t.terminal = .identifier name) :
    Yields (anyStatement ex st) (s.prepend (t :: ts)) r s' ↔
      Yields (assignment ex) (s.prepend (t :: ts)) r s' := by
  rw [yields_anyStatement, Stream.current_prepend_cons, h]
  simp

end

theorem yields_statement_succ {depth room : Nat} : Yields (statement depth (room + 1)) s r s' ↔
    Yields (anyStatement (expression (depth + 1) room) (statement (depth + 1) room)) s r s' := by
  rw [statement, yields_nested, yields_current_bind, yields_report_bind]

/-! ## No rule moves back -/

theorem advances_guarded {word : String} {context : Context} (hex : Advances ex) :
    Advances (guarded word context ex) :=
  (advances_expect _ _).bind fun _ ↦ (advances_expect _ _).bind fun _ ↦ hex.bind fun _ ↦
    (advances_expect _ _).bind fun _ ↦ advances_pure _

theorem advances_statements (hst : Advances st) : Advances (statements st) :=
  advances_many fun _ p h ↦ by rwa [eq_of_memberItem_eq_some h]

theorem advances_anyStatement (hex : Advances ex) (hst : Advances st) :
    Advances (anyStatement ex st) := by
  refine advances_current.bind fun t ↦ .ite ?_ (.ite ?_ (.ite ?_ (.ite ?_ (.ite ?_ ?_))))
  · exact advances_advance.bind fun _ ↦ advances_pure _
  · exact (advances_expect _ _).bind fun _ ↦ (advances_statements hst).bind fun _ ↦
      (advances_expect _ _).bind fun _ ↦ advances_pure _
  · exact (advances_guarded hex).bind fun _ ↦ hst.bind fun _ ↦ advances_current.bind fun _ ↦
      .ite (advances_advance.bind fun _ ↦ hst.bind fun _ ↦ advances_pure _) (advances_pure _)
  · exact (advances_guarded hex).bind fun _ ↦ hst.bind fun _ ↦ advances_pure _
  · exact (advances_expect _ _).bind fun _ ↦ (advances_expect _ _).bind fun _ ↦
      hex.bind fun _ ↦ (advances_expect _ _).bind fun _ ↦ advances_pure _
  · exact advances_unexpected _ _

theorem advances_statement (depth room : Nat) : Advances (statement depth room) := by
  induction room generalizing depth with
  | zero => exact advances_tooDeep depth
  | succ room ih =>
    exact (advances_current.bind fun _ ↦ (advances_note _).bind fun _ ↦
      advances_anyStatement (advances_expression _ _) (ih (depth + 1))).nested

private theorem length_lt_of_yields_guarded {word : String} {context : Context} (hex : Advances ex)
    (h : Yields (guarded word context ex) s e s') : s'.tokens.length < s.tokens.length := by
  obtain ⟨k, o, c, s₁, -, -, -, rfl, he⟩ := yields_guarded.mp h
  have hle := hex.length_le he
  simp only [Stream.tokens_prepend, List.length_append, List.length_cons, List.length_nil] at hle ⊢
  omega

/-- Whatever its form, a statement takes a token. -/
private theorem length_lt_of_yields_anyStatement (hex : Advances ex) (hst : Advances st)
    (h : Yields (anyStatement ex st) s r s') : s'.tokens.length < s.tokens.length := by
  rw [yields_anyStatement] at h
  split at h
  · next hc =>
    obtain ⟨rfl, rfl⟩ := h
    exact Stream.length_advance_lt ((Token.kind_eq hc).trans_ne (by simp))
  · split at h
    · obtain ⟨o, s₁, ho, hrest⟩ := yields_bind.mp h
      obtain ⟨-, rfl⟩ := yields_expectSeparator.mp ho
      have hle := ((advances_statements hst).bind fun _ ↦ (advances_expect _ _).bind fun _ ↦
        advances_pure _).length_le hrest
      exact hle.trans_lt (by simp)
    · split at h
      · obtain ⟨b, s₁, hb, hrest⟩ := yields_bind.mp h
        have hle := (hst.bind fun _ ↦ advances_current.bind fun _ ↦
          .ite (advances_advance.bind fun _ ↦ hst.bind fun _ ↦ advances_pure _)
            (advances_pure _)).length_le hrest
        exact hle.trans_lt (length_lt_of_yields_guarded hex hb)
      · split at h
        · obtain ⟨b, s₁, t, hb, ht, -⟩ := yields_loop.mp h
          exact (hst.length_le ht).trans_lt (length_lt_of_yields_guarded hex hb)
        · obtain ⟨x, a, c, s₁, e, -, -, -, rfl, he, -⟩ := yields_assignment.mp h
          have hle := hex.length_le he
          simp only [Stream.tokens_prepend, List.length_append, List.length_cons,
            List.length_nil] at hle ⊢
          omega

@[simp] theorem not_yields_statement_zero {depth : Nat} : ¬ Yields (statement depth 0) s r s' :=
  not_yields_tooDeep

theorem length_lt_of_yields_statement {depth room : Nat}
    (h : Yields (statement depth room) s r s') : s'.tokens.length < s.tokens.length := by
  cases room with
  | zero => exact absurd h not_yields_statement_zero
  | succ room =>
    exact length_lt_of_yields_anyStatement (advances_expression _ _) (advances_statement _ _)
      (yields_statement_succ.mp h)

theorem progressive_memberItem (depth room : Nat) :
    Progressive (memberItem (statement depth room)) where
  length_lt hitem h := by
    obtain rfl := eq_of_memberItem_eq_some hitem
    exact length_lt_of_yields_statement h
  endOfInput _ := memberItem_eq_none_iff.mpr (.inr rfl)

/-! ## What is read is derived -/

/-- Whether all that a rule reads from scanned tokens is derived as a statement, with a nesting that
the room suffices for, and no `else` is left that could belong to it. -/
def ReadsStatement (room : Nat) (p : Rule Statement) : Prop :=
  ∀ ⦃s r s'⦄, s.Scanned → Yields p s r s' → ∃ w n, s = s'.prepend w ∧
    DerivesStatement (w.map Token.terminal) r n ∧ n ≤ room ∧
      (r.endsWithOpenIf = true → s'.current.terminal ≠ .keyword "else")

theorem derives_of_repeats_members {room : Nat} (hst : ReadsStatement room st)
    {ms : List Statement} (h : Repeats (memberItem st) s ms s') (hs : s.Scanned) :
    ∃ w n, s = s'.prepend w ∧ DerivesStatements (w.map Token.terminal) ms n ∧ n ≤ room := by
  induction h with
  | stop => exact ⟨[], 0, rfl, .nil, Nat.zero_le _⟩
  | step hitem hr _ ih =>
    obtain rfl := eq_of_memberItem_eq_some hitem
    obtain ⟨u, m, rfl, hu, hm, -⟩ := hst hs hr
    obtain ⟨w, n, rfl, hw, hn⟩ := ih hs.of_prepend
    refine ⟨u ++ w, max m n, (Stream.prepend_append ..).symm, ?_, max_le hm hn⟩
    rw [List.map_append]
    exact .cons hu hw

/-- The test of a composite statement, its keyword and its parentheses. -/
theorem derives_of_yields_guarded {word : String} {context : Context} {room : Nat}
    (hex : ReadsDerived .disjunction room ex) (hs : s.Scanned)
    (h : Yields (guarded word context ex) s e s') : ∃ w w' n, s = s'.prepend w ∧
      w.map Token.terminal = .keyword word :: .separator "(" :: (w' ++ [.separator ")"]) ∧
      DerivesExpression .disjunction w' e n ∧ n ≤ room := by
  obtain ⟨k, o, c, s₁, hk, ho, hc, rfl, he⟩ := yields_guarded.mp h
  obtain ⟨w, n, rfl, hw, hn⟩ := hex hs.of_prepend he
  refine ⟨[k, o] ++ (w ++ [c]), _, n, ?_, ?_, hw, hn⟩
  · rw [Stream.prepend_append, Stream.prepend_append]
  · simp [hk, ho, hc]

private theorem readsStatement_conditional {room : Nat} (hex : ReadsDerived .disjunction room ex)
    (hst : ReadsStatement room st) : ReadsStatement (room + 1) (conditional ex st) := by
  intro s r s' hs h
  obtain ⟨b, s₁, t, s₂, hb, ht, hrest⟩ := yields_conditional.mp h
  obtain ⟨w, w', m, rfl, hw, hw', hm⟩ := derives_of_yields_guarded hex hs hb
  obtain ⟨u, n, rfl, hu, hn, hopen⟩ := hst hs.of_prepend ht
  have hs₂ := hs.of_prepend.of_prepend
  split at hrest
  · next helse =>
    obtain ⟨f, hf, rfl⟩ := hrest
    obtain ⟨v, k, hread, hv, hk, hopen'⟩ := hst hs₂.advance hf
    have hne : s₂.current.kind ≠ .endOfInput := (Token.kind_eq helse).trans_ne (by simp)
    refine ⟨w ++ (u ++ s₂.current :: v), max m (max n k) + 1, ?_, ?_, by omega, hopen'⟩
    · rw [Stream.prepend_append, Stream.prepend_append, ← Stream.eq_prepend_cons hne hread]
    · -- An open `if` in the first branch would have read this `else`.
      have ht : t.endsWithOpenIf = false := by
        rw [← Bool.not_eq_true]
        exact fun h ↦ hopen h helse
      simp only [List.map_append, List.map_cons, hw, helse]
      simpa using DerivesStatement.ifThenElse hw' hu ht hv
  · next helse =>
    obtain ⟨rfl, rfl⟩ := hrest
    refine ⟨w ++ u, max m n + 1, (Stream.prepend_append ..).symm, ?_, by omega, fun _ ↦ helse⟩
    rw [List.map_append, hw]
    simpa using DerivesStatement.ifThen hw' hu

private theorem readsStatement_loop {room : Nat} (hex : ReadsDerived .disjunction room ex)
    (hst : ReadsStatement room st) : ReadsStatement (room + 1) (loop ex st) := by
  intro s r s' hs h
  obtain ⟨b, s₁, t, hb, ht, rfl⟩ := yields_loop.mp h
  obtain ⟨w, w', m, rfl, hw, hw', hm⟩ := derives_of_yields_guarded hex hs hb
  obtain ⟨u, n, rfl, hu, hn, hopen⟩ := hst hs.of_prepend ht
  refine ⟨w ++ u, max m n + 1, (Stream.prepend_append ..).symm, ?_, by omega, hopen⟩
  rw [List.map_append, hw]
  simpa using DerivesStatement.loop hw' hu

private theorem readsStatement_assignment {room : Nat} (hex : ReadsDerived .disjunction room ex) :
    ReadsStatement (room + 1) (assignment ex) := by
  intro s r s' hs h
  obtain ⟨x, a, c, s₁, e, hx, ha, hc, rfl, he, rfl⟩ := yields_assignment.mp h
  obtain ⟨w, n, rfl, hw, hn⟩ := hex hs.of_prepend he
  refine ⟨[x, a] ++ (w ++ [c]), n + 1, ?_, ?_, by omega, nofun⟩
  · rw [Stream.prepend_append, Stream.prepend_append]
  · have hterminal : x.terminal = .identifier x.text := by rw [Token.terminal, hx]
    simpa [ha, hc, hterminal] using DerivesStatement.assignment x.text hw

private theorem readsStatement_block {room : Nat} (hst : ReadsStatement room st)
    (hprogress : Progressive (memberItem st)) : ReadsStatement (room + 1) (block st) := by
  intro s r s' hs h
  obtain ⟨o, c, s₁, ms, ho, hc, rfl, hms, rfl⟩ := (yields_block hprogress).mp h
  obtain ⟨w, n, rfl, hw, hn⟩ := derives_of_repeats_members hst hms hs.of_prepend
  refine ⟨[o] ++ (w ++ [c]), n + 1, ?_, ?_, by omega, nofun⟩
  · rw [Stream.prepend_append, Stream.prepend_append]
  · simpa [ho, hc] using DerivesStatement.block hw

/-- What is read as a statement is derived as one. -/
theorem readsStatement_statement (depth room : Nat) :
    ReadsStatement room (statement depth room) := by
  induction room generalizing depth with
  | zero => exact fun _ _ _ _ h ↦ absurd h not_yields_statement_zero
  | succ room ih =>
    intro s r s' hs h
    have hex : ReadsDerived .disjunction room (expression (depth + 1) room) := derives_of_yields
    rw [yields_statement_succ, yields_anyStatement] at h
    split at h
    · next hc =>
      obtain ⟨rfl, rfl⟩ := h
      have hne : s.current.kind ≠ .endOfInput := (Token.kind_eq hc).trans_ne (by simp)
      refine ⟨[s.current], 1, Stream.eq_prepend_advance hne, ?_, by omega, nofun⟩
      rw [List.map_singleton, hc]
      exact .skip
    · split at h
      · exact readsStatement_block (ih _) (progressive_memberItem _ _) hs h
      · split at h
        · exact readsStatement_conditional hex (ih _) hs h
        · split at h
          · exact readsStatement_loop hex (ih _) hs h
          · exact readsStatement_assignment hex hs h

/-! ## What is derived is read -/

/-- Whether a statement can start with a terminal. -/
def StartsStatement (t : Terminal) : Prop :=
  t.kind = .identifier ∨
    t ∈ [.separator ";", .separator "\x7b", Terminal.keyword "if", .keyword "while"]

theorem StartsStatement.ne {t t' : Terminal} (h : StartsStatement t) (hkind : t'.kind ≠ .identifier)
    (ht' : t' ∉ [.separator ";", .separator "\x7b", Terminal.keyword "if", .keyword "while"]) :
    t ≠ t' := by
  rintro rfl
  exact h.elim hkind ht'

theorem StartsStatement.kind_ne {t : Terminal} (h : StartsStatement t) : t.kind ≠ .endOfInput := by
  rcases h with h | h
  · rw [h]
    decide
  · revert t
    decide

theorem exists_cons_of_derivesStatement {u : List Terminal} {n : Nat}
    (h : DerivesStatement u r n) : ∃ t ts, u = t :: ts ∧ StartsStatement t := by
  cases h with
  | assignment name => exact ⟨_, _, rfl, .inl rfl⟩
  | skip | ifThen | ifThenElse | loop | block => exact ⟨_, _, rfl, .inr (by decide)⟩

/-- In front of the statements of a block stands one of them, or what follows the block. -/
theorem current_of_derivesStatements {w : List Token} {ms : List Statement} {n : Nat}
    (h : DerivesStatements (w.map Token.terminal) ms n) :
    StartsStatement (s'.prepend w).current.terminal ∨ s'.prepend w = s' := by
  generalize hw : w.map Token.terminal = u at h
  cases h with
  | nil =>
    obtain rfl := List.map_eq_nil_iff.mp hw
    exact .inr rfl
  | cons hr =>
    obtain ⟨t, ts, rfl, hstart⟩ := exists_cons_of_derivesStatement hr
    obtain ⟨c, cs, rfl, rfl, -⟩ := List.map_eq_cons_iff.mp hw
    exact .inl hstart

/-- Whether a rule reads `r` from all tokens with the terminals `u`, where no `else` that could
belong to it follows. -/
def ReadsAs (p : Rule Statement) (u : List Terminal) (r : Statement) : Prop :=
  ∀ ⦃w s'⦄, w.map Token.terminal = u →
    (r.endsWithOpenIf = true → s'.current.terminal ≠ .keyword "else") → Yields p (s'.prepend w) r s'

section

variable {depth room n : Nat} {u v w : List Terminal} {b : Expression} {t f : Statement}

private theorem readsAs_skip : ReadsAs (anyStatement ex st) [.separator ";"] .skip := by
  intro w s' hw _
  obtain ⟨t, rfl, ht⟩ := List.map_eq_singleton_iff.mp hw
  rw [yields_anyStatement, Stream.current_prepend_cons, if_pos ht]
  exact ⟨rfl, rfl⟩

private theorem readsAs_assignment (name : String) (he : DerivesExpression .disjunction u e n)
    (hn : n ≤ room) : ReadsAs (anyStatement (expression depth room) st)
      (.identifier name :: .operator ":=" :: (u ++ [.separator ";"])) (.assignment ⟨name⟩ e) := by
  intro w s' hw _
  obtain ⟨x, w₁, rfl, hx, hw₁⟩ := List.map_eq_cons_iff.mp hw
  obtain ⟨a, w₂, rfl, ha, hw₂⟩ := List.map_eq_cons_iff.mp hw₁
  obtain ⟨w₃, w₄, rfl, hw₃, hw₄⟩ := List.map_eq_append_iff.mp hw₂
  obtain ⟨c, rfl, hc⟩ := List.map_eq_singleton_iff.mp hw₄
  refine (yields_anyStatement_of_identifier hx).mpr (yields_assignment.mpr ⟨x, a, c,
    s'.prepend (w₃ ++ [c]), e, Token.kind_eq hx, ha, hc, rfl, ?_, ?_⟩)
  · rw [Stream.prepend_append]
    refine yields_of_derives (by rwa [hw₃]) hn ?_
    rw [Stream.current_prepend_cons, Token.kind_eq hc]
    decide
  · rw [Token.text_eq hx]

/-- The test of a composite statement is read from the terminals that are derived for it. -/
theorem yields_guarded_of_derives {word : String} {context : Context} {w : List Token}
    (he : DerivesExpression .disjunction u e n) (hn : n ≤ room) (hw : w.map Token.terminal =
      .keyword word :: .separator "(" :: (u ++ .separator ")" :: v)) :
    ∃ w', w'.map Token.terminal = v ∧
      Yields (guarded word context (expression depth room)) (s'.prepend w) e (s'.prepend w') := by
  obtain ⟨k, w₁, rfl, hk, hw₁⟩ := List.map_eq_cons_iff.mp hw
  obtain ⟨o, w₂, rfl, ho, hw₂⟩ := List.map_eq_cons_iff.mp hw₁
  obtain ⟨w₃, w₄, rfl, hw₃, hw₄⟩ := List.map_eq_append_iff.mp hw₂
  obtain ⟨c, w₅, rfl, hc, hw₅⟩ := List.map_eq_cons_iff.mp hw₄
  refine ⟨w₅, hw₅, yields_guarded.mpr
    ⟨k, o, c, s'.prepend (w₃ ++ c :: w₅), hk, ho, hc, rfl, ?_⟩⟩
  rw [Stream.prepend_append, ← Stream.prepend_cons]
  refine yields_of_derives (by rwa [hw₃]) hn ?_
  rw [Stream.current_prepend_cons, Token.kind_eq hc]
  decide

private theorem readsAs_ifThen (hb : DerivesExpression .disjunction u b n) (hn : n ≤ room)
    (ht : ReadsAs st v t) : ReadsAs (anyStatement (expression depth room) st)
      (.keyword "if" :: .separator "(" :: (u ++ .separator ")" :: v)) (.conditional b t none) := by
  intro w s' hw helse
  obtain ⟨w', hw', hguard⟩ := yields_guarded_of_derives hb hn hw
  obtain ⟨k, w₁, rfl, hk, -⟩ := List.map_eq_cons_iff.mp hw
  refine (yields_anyStatement_of_if hk).mpr (yields_conditional.mpr
    ⟨b, _, t, s', hguard, ht hw' fun _ ↦ helse rfl, ?_⟩)
  rw [if_neg (helse rfl)]
  exact ⟨rfl, rfl⟩

private theorem readsAs_ifThenElse (hb : DerivesExpression .disjunction u b n) (hn : n ≤ room)
    (ht : ReadsAs st v t) (hopen : t.endsWithOpenIf = false) (hf : ReadsAs st w f) :
    ReadsAs (anyStatement (expression depth room) st)
      (.keyword "if" :: .separator "(" :: (u ++ .separator ")" :: (v ++ .keyword "else" :: w)))
      (.conditional b t (some f)) := by
  intro ts s' hts helse
  obtain ⟨w', hw', hguard⟩ := yields_guarded_of_derives hb hn hts
  obtain ⟨k, ts, rfl, hk, -⟩ := List.map_eq_cons_iff.mp hts
  obtain ⟨w₁, w₂, rfl, hw₁, hw₂⟩ := List.map_eq_append_iff.mp hw'
  obtain ⟨c, w₃, rfl, hc, hw₃⟩ := List.map_eq_cons_iff.mp hw₂
  rw [Stream.prepend_append] at hguard
  refine (yields_anyStatement_of_if hk).mpr (yields_conditional.mpr
    ⟨b, _, t, s'.prepend (c :: w₃), hguard, ht hw₁ ?_, ?_⟩)
  · rw [hopen]
    exact fun h ↦ absurd h (by decide)
  · rw [Stream.current_prepend_cons, if_pos hc]
    exact ⟨f, hf hw₃ helse, rfl⟩

private theorem readsAs_loop (hb : DerivesExpression .disjunction u b n) (hn : n ≤ room)
    (ht : ReadsAs st v t) : ReadsAs (anyStatement (expression depth room) st)
      (.keyword "while" :: .separator "(" :: (u ++ .separator ")" :: v)) (.loop b t) := by
  intro w s' hw helse
  obtain ⟨w', hw', hguard⟩ := yields_guarded_of_derives hb hn hw
  obtain ⟨k, w₁, rfl, hk, -⟩ := List.map_eq_cons_iff.mp hw
  exact (yields_anyStatement_of_while hk).mpr
    (yields_loop.mpr ⟨b, _, t, hguard, ht hw' helse, rfl⟩)

/-- Whether statements are read from all tokens with the terminals `u`, where the block ends
behind them. -/
def RepeatsAs (st : Rule Statement) (u : List Terminal) (ms : List Statement) : Prop :=
  ∀ ⦃w s'⦄, w.map Token.terminal = u → memberItem st s'.current = none →
    Repeats (memberItem st) (s'.prepend w) ms s'

private theorem readsAs_block {ms : List Statement} (hst : Progressive (memberItem st))
    (hms : RepeatsAs st u ms) : ReadsAs (anyStatement ex st)
      (.separator "\x7b" :: (u ++ [.separator "\x7d"])) (.block ms) := by
  intro w s' hw _
  obtain ⟨o, w₁, rfl, ho, hw₁⟩ := List.map_eq_cons_iff.mp hw
  obtain ⟨w₂, w₃, rfl, hw₂, hw₃⟩ := List.map_eq_append_iff.mp hw₁
  obtain ⟨c, rfl, hc⟩ := List.map_eq_singleton_iff.mp hw₃
  have hclose : memberItem st (s'.prepend [c]).current = none :=
    memberItem_eq_none_iff.mpr (.inl hc)
  refine (yields_anyStatement_of_brace ho).mpr ((yields_block hst).mpr
    ⟨o, c, s'.prepend (w₂ ++ [c]), ms, ho, hc, rfl, ?_, rfl⟩)
  rw [Stream.prepend_append]
  exact hms hw₂ hclose

private theorem repeatsAs_cons {ms : List Statement} (hd : DerivesStatement u r n)
    (hds : DerivesStatements v ms room) (hr : ReadsAs st u r) (hms : RepeatsAs st v ms) :
    RepeatsAs st (u ++ v) (r :: ms) := by
  intro w s' hw hs'
  obtain ⟨w₁, w₂, rfl, hw₁, hw₂⟩ := List.map_eq_append_iff.mp hw
  -- Behind the statement stands another one or what ends the block.
  have helse : (s'.prepend w₂).current.terminal ≠ .keyword "else" := by
    rcases current_of_derivesStatements (hw₂.symm ▸ hds) with hstart | heq
    · exact hstart.ne (by decide) (by decide)
    · rw [heq]
      intro h
      rcases memberItem_eq_none_iff.mp hs' with hclose | hend
      · exact absurd (h.symm.trans hclose) (by simp)
      · exact absurd ((Token.kind_eq h).symm.trans hend) (by decide)
  have hread := hr hw₁ fun _ ↦ helse
  obtain ⟨t, ts, rfl, hstart⟩ := exists_cons_of_derivesStatement hd
  obtain ⟨c, cs, rfl, rfl, -⟩ := List.map_eq_cons_iff.mp hw₁
  have hitem : memberItem st ((s'.prepend w₂).prepend (c :: cs)).current = some st :=
    memberItem_eq_some (hstart.ne (by decide) (by decide)) hstart.kind_ne
  rw [Stream.prepend_append]
  exact .step hitem hread (hms hw₂ hs')

end

private theorem readsAs_statement_succ {depth room : Nat} {u : List Terminal}
    (h : ReadsAs (anyStatement (expression (depth + 1) room) (statement (depth + 1) room)) u r) :
    ReadsAs (statement depth (room + 1)) u r :=
  fun _ _ hw helse ↦ yields_statement_succ.mpr (h hw helse)

mutual

/-- What is derived as a statement is read as one. -/
theorem readsAs_of_derives : ∀ {u r n}, DerivesStatement u r n →
    ∀ depth room, n ≤ room → ReadsAs (statement depth room) u r
  | _, _, _, h, _, 0, hn => by cases h <;> exact absurd hn (by omega)
  | _, _, _, .skip, _, _ + 1, _ => readsAs_statement_succ readsAs_skip
  | _, _, _, .assignment name he, _, _ + 1, hn =>
    readsAs_statement_succ (readsAs_assignment name he (by omega))
  | _, _, _, .ifThen hb ht, depth, room + 1, hn =>
    have hthen := readsAs_of_derives ht (depth + 1) room (by omega)
    readsAs_statement_succ (readsAs_ifThen hb (by omega) hthen)
  | _, _, _, .ifThenElse hb ht hopen he, depth, room + 1, hn =>
    have hthen := readsAs_of_derives ht (depth + 1) room (by omega)
    have helse := readsAs_of_derives he (depth + 1) room (by omega)
    readsAs_statement_succ (readsAs_ifThenElse hb (by omega) hthen hopen helse)
  | _, _, _, .loop hb hs, depth, room + 1, hn =>
    have hbody := readsAs_of_derives hs (depth + 1) room (by omega)
    readsAs_statement_succ (readsAs_loop hb (by omega) hbody)
  | _, _, _, .block hms, depth, room + 1, hn =>
    have hmembers := repeatsAs_of_derives hms (depth + 1) room (by omega)
    readsAs_statement_succ (readsAs_block (progressive_memberItem _ _) hmembers)

/-- What is derived as the members of a block is read as such. -/
theorem repeatsAs_of_derives : ∀ {u ms n}, DerivesStatements u ms n →
    ∀ depth room, n ≤ room → RepeatsAs (statement depth room) u ms
  | _, _, _, .nil, _, _, _ => by
    intro w s' hw hs'
    obtain rfl := List.map_eq_nil_iff.mp hw
    exact .stop hs'
  | _, _, _, .cons hr hms, depth, room, hn =>
    repeatsAs_cons hr hms (readsAs_of_derives hr depth room (by omega))
      (repeatsAs_of_derives hms depth room (by omega))

end

end Kay.Rule
