import Kay.Proofs.Grammar.Level

/-!
# Expressions are read as the grammar derives them

The rules of expressions against the grammar, in both directions and for any number of levels that
may be opened.

What a rule reads is derived (`derives_of_yields`): by recursion on the room for nesting and, at one
room, from the factors upwards, a repetition being followed with the tree that has been joined so
far as the invariant.

What is derived is read (`yields_of_derives`): by induction on the derivation. Here the token behind
matters, since a loop goes on where an operator of its level follows; a derivation that is about to
be continued is therefore read together with its continuation, as an operand list that is still
open.
-/

namespace Kay.Rule

open Grammar

variable {g : Rule Expression} {s s' : Stream} {e : Expression}

/-! ## What is read is derived -/

/-- Whether all that a rule reads from scanned tokens is derived at a level, with a nesting that
the room suffices for. -/
def ReadsDerived (l : Level) (room : Nat) (p : Rule Expression) : Prop :=
  ∀ ⦃s e s'⦄, s.Scanned → Yields p s e s' → ∃ w n, s = s'.prepend w ∧
    DerivesExpression l (w.map Token.terminal) e n ∧ n ≤ room

/-- An operand that is read behind some expression continues a derivation of it. -/
theorem derives_of_yields_item {l : Level} (hl : l.associates = true) {room : Nat}
    {p : Rule Expression} (hp : ReadsDerived l.tighter room p)
    {item : Rule (Operator × Expression)} {o : Operator × Expression}
    (hitem : operandItem l.operators p s.current = some item) (ho : Yields item s o s')
    (hs : s.Scanned) {u : List Terminal} {acc : Expression} {m : Nat}
    (hacc : DerivesExpression l u acc m) (hm : m ≤ room) :
    s'.Scanned ∧ ∃ w n, s = s'.prepend w ∧
      DerivesExpression l (u ++ w.map Token.terminal) (.binary o.1 acc o.2) n ∧ n ≤ room := by
  obtain ⟨hop, hyields⟩ := yields_operandItem hitem
  obtain ⟨hfst, hright⟩ := hyields.mp ho
  obtain ⟨op, hmem, hterminal⟩ := Token.isOperatorIn_iff.mp hop
  obtain ⟨w, k, hread, hderives, hk⟩ := hp hs.advance hright
  have hs' : s'.Scanned := by
    have := hs.advance
    rw [hread] at this
    exact this.of_prepend
  have hne : s.current.kind ≠ .endOfInput := (Token.kind_eq hterminal).trans_ne (by simp)
  refine ⟨hs', s.current :: w, max m k, Stream.eq_prepend_cons hne hread, ?_, max_le hm hk⟩
  rw [List.map_cons, hterminal, hfst, Token.text_eq hterminal]
  exact .chain hl hmem hacc hderives

/-- The operands that are read behind some expression continue a derivation of it. -/
private theorem derives_of_repeats {l : Level} (hl : l.associates = true) {room : Nat}
    {p : Rule Expression} (hp : ReadsDerived l.tighter room p)
    {others : List (Operator × Expression)}
    (h : Repeats (operandItem l.operators p) s others s') (hs : s.Scanned)
    {u : List Terminal} {acc : Expression} {m : Nat} (hacc : DerivesExpression l u acc m)
    (hm : m ≤ room) : ∃ v n, s = s'.prepend v ∧
      DerivesExpression l (u ++ v.map Token.terminal) (joinLeft acc others) n ∧ n ≤ room := by
  -- What has been joined so far is derived, and each operand extends the derivation.
  induction h generalizing u acc m with
  | stop h => exact ⟨[], m, rfl, by simpa [joinLeft] using hacc, hm⟩
  | @step s s₁ s' item o others hitem ho _ ih =>
    obtain ⟨hs₁, w, k, rfl, hnext, hk⟩ := derives_of_yields_item hl hp hitem ho hs hacc hm
    obtain ⟨v, n, rfl, hv, hn⟩ := ih hs₁ hnext hk
    refine ⟨w ++ v, n, (Stream.prepend_append ..).symm, ?_, hn⟩
    rw [List.map_append, ← List.append_assoc]
    exact hv

theorem readsDerived_leftAssociative {l : Level} (hl : l.associates = true) {room : Nat}
    {p : Rule Expression} (hadv : Advances p) (hp : ReadsDerived l.tighter room p) :
    ReadsDerived l room (leftAssociative l.operators p) := by
  intro s e s' hs h
  obtain ⟨first, s₁, others, hfirst, hothers, rfl⟩ := (yields_leftAssociative hadv).mp h
  obtain ⟨u, m, rfl, hu, hm⟩ := hp hs hfirst
  have hne := (Level.ne_factor_of_binary (.inl hl)).1
  obtain ⟨v, n, rfl, hv, hn⟩ :=
    derives_of_repeats hl hp hothers hs.of_prepend (.operand hne hu) hm
  exact ⟨u ++ v, n, (Stream.prepend_append ..).symm, by rwa [List.map_append], hn⟩

theorem readsDerived_relation {room : Nat} (hp : ReadsDerived .addition room (addition g)) :
    ReadsDerived .relation room (relation g) := by
  intro s e s' hs h
  obtain ⟨left, s₁, hleft, hrest⟩ := yields_nonAssociative.mp h
  obtain ⟨u, m, rfl, hu, hm⟩ := hp hs hleft
  have hs₁ := hs.of_prepend
  split at hrest
  · next hop =>
    obtain ⟨right, hright, rfl⟩ := hrest
    obtain ⟨op, hmem, hterminal⟩ := Token.isOperatorIn_iff.mp hop
    obtain ⟨v, n, hread, hv, hn⟩ := hp hs₁.advance hright
    have hmem' := (mem_relations_iff (hs₁.mem_operators hterminal)).mp hmem
    refine ⟨u ++ s₁.current :: v, max m n, ?_, ?_, max_le hm hn⟩
    · have hne : s₁.current.kind ≠ .endOfInput := (Token.kind_eq hterminal).trans_ne (by simp)
      rw [Stream.prepend_append, ← Stream.eq_prepend_cons hne hread]
    · rw [List.map_append, List.map_cons, hterminal,
        Token.text_eq hterminal]
      exact .compare hmem' hu hv
  · obtain ⟨rfl, rfl⟩ := hrest
    exact ⟨u, m, rfl, .operand (by decide) hu, hm⟩

theorem readsDerived_negation {room : Nat} (hp : ReadsDerived .factor room (factor g)) :
    ReadsDerived .negation room (negation g) := by
  intro s e s' hs h
  rw [yields_negation] at h
  split at h
  · next hterminal =>
    obtain ⟨e', he', rfl⟩ := h
    obtain ⟨w, n, hread, hw, hn⟩ := hp hs.advance he'
    have hne : s.current.kind ≠ .endOfInput := (Token.kind_eq hterminal).trans_ne (by simp)
    refine ⟨s.current :: w, n, ?_, ?_, hn⟩
    · exact Stream.eq_prepend_cons hne hread
    · rw [List.map_cons, hterminal]
      exact .not hw
  · obtain ⟨w, n, rfl, hw, hn⟩ := hp hs h
    exact ⟨w, n, rfl, .operand (by decide) hw, hn⟩

/-- Whether all that a rule reads at a parenthesis is derived as a factor. -/
def ReadsGroup (room : Nat) (g : Rule Expression) : Prop :=
  ∀ ⦃s e s'⦄, s.Scanned → s.current.terminal = .separator "(" → Yields g s e s' →
    ∃ w n, s = s'.prepend w ∧ DerivesExpression .factor (w.map Token.terminal) e n ∧ n ≤ room

theorem readsDerived_factor {room : Nat} (hg : ReadsGroup room g) :
    ReadsDerived .factor room (factor g) := by
  intro s e s' hs h
  rcases factor_cases h with ⟨t, rfl, ht⟩ | ⟨hopen, h⟩
  · exact ⟨[t], 0, rfl, .atom ht, Nat.zero_le _⟩
  · exact hg hs hopen h

/-- All levels read what the grammar derives if the rule for a parenthesised factor does. -/
private theorem readsDerived_level {room : Nat} (hadv : Advances g) (hg : ReadsGroup room g) :
    ReadsDerived .disjunction room (level .disjunction g) := by
  have hterm := readsDerived_leftAssociative (l := .term) rfl (advances_level hadv .negation)
    (readsDerived_negation (readsDerived_factor hg))
  have haddition := readsDerived_leftAssociative (l := .addition) rfl
    (advances_level hadv .term) hterm
  have hconjunction := readsDerived_leftAssociative (l := .conjunction) rfl
    (advances_level hadv .relation) (readsDerived_relation haddition)
  exact readsDerived_leftAssociative (l := .disjunction) rfl
    (advances_level hadv .conjunction) hconjunction

theorem readsGroup_group (depth room : Nat) : ReadsGroup room (group depth room) := by
  induction room generalizing depth with
  | zero => exact fun _ _ _ _ _ h ↦ absurd h not_yields_tooDeep
  | succ room ih =>
    intro s e s' hs hopen h
    obtain ⟨t, hclose, he⟩ := yields_group_succ.mp h
    rw [expression_eq] at he
    obtain ⟨w, n, hread, hw, hn⟩ := readsDerived_level (advances_group _ _) (ih _) hs.advance he
    have hne : s.current.kind ≠ .endOfInput := (Token.kind_eq hopen).trans_ne (by simp)
    refine ⟨s.current :: (w ++ [t]), n + 1, ?_, ?_, Nat.succ_le_succ hn⟩
    · exact Stream.eq_prepend_cons hne (by rw [hread, Stream.prepend_append])
    · rw [List.map_cons, List.map_append, List.map_singleton, hopen, hclose]
      exact .group hw

/-- What is read as an expression is derived as one. -/
theorem derives_of_yields {depth room : Nat} :
    ReadsDerived .disjunction room (expression depth room) := by
  rw [expression_eq]
  exact readsDerived_level (advances_group _ _) (readsGroup_group depth room)

/-! ## What is derived is read -/

/-- The operators at which some loop goes on when an expression of a level has been read: its own
and those of the tighter levels. -/
def continuing : Level → List String
  | .disjunction => "||" :: "&&" :: Operator.relations ++ ["+", "-", "*", "/"]
  | .conjunction => "&&" :: Operator.relations ++ ["+", "-", "*", "/"]
  | .relation => Operator.relations ++ ["+", "-", "*", "/"]
  | .addition => ["+", "-", "*", "/"]
  | .term => ["*", "/"]
  | .negation | .factor => []

theorem continuing_tighter_subset (l : Level) : continuing l.tighter ⊆ continuing l := by
  cases l <;> decide

theorem operators_subset_continuing {l : Level} (hl : l.associates = true) :
    l.operators ⊆ continuing l := by
  cases l <;> revert hl <;> decide

/-- An operator ends the operands on its left. -/
private theorem not_mem_continuing_tighter {l : Level} {op : String} (hop : op ∈ l.operators) :
    op ∉ continuing l.tighter := by
  have hall : ∀ o ∈ l.operators, o ∉ continuing l.tighter := by cases l <;> decide
  exact hall op hop

theorem isOperatorIn_eq_false_of_subset {ops ops' : List String} (h : ops ⊆ ops') {t : Token}
    (ht : t.isOperatorIn ops' = false) : t.isOperatorIn ops = false := by
  simp only [Token.isOperatorIn, Bool.and_eq_false_iff, decide_eq_false_iff_not] at ht ⊢
  exact ht.imp_right fun hmem hmem' ↦ hmem (h hmem')

theorem isOperatorIn_of_terminal {ops : List String} {op : String} {t : Token}
    (ht : t.terminal = .operator op) : t.isOperatorIn ops = decide (op ∈ ops) := by
  obtain ⟨hkind, rfl⟩ := Terminal.mk.inj ht
  simp [Token.isOperatorIn, hkind]

private theorem isOperatorIn_of_separator {ops : List String} {text : String} {t : Token}
    (ht : t.terminal = .separator text) : t.isOperatorIn ops = false := by
  simp [Token.isOperatorIn, show t.kind = .separator from Token.kind_eq ht]

/-- Whether a level reads `e` from all tokens with the terminals `u`, where what follows does not
continue the expression. -/
def ReadsClosed (l : Level) (g : Rule Expression) (u : List Terminal) (e : Expression) : Prop :=
  ∀ ⦃w s'⦄, w.map Token.terminal = u → s'.current.isOperatorIn (continuing l) = false →
    Yields (level l g) (s'.prepend w) e s'

/-- Whether a level reads `e` from all tokens with the terminals `u`, together with the operands
that follow. -/
def ReadsOpen (l : Level) (g : Rule Expression) (u : List Terminal) (e : Expression) : Prop :=
  ∀ ⦃w s' others s''⦄, w.map Token.terminal = u →
    s'.current.isOperatorIn (continuing l.tighter) = false →
    Repeats (operandItem l.operators (level l.tighter g)) s' others s'' →
    Yields (level l g) (s'.prepend w) (joinLeft e others) s''

section

variable {l : Level} {u v : List Terminal} {f : Expression} {op : String}

private theorem ReadsOpen.closed (hl : l.associates = true) (h : ReadsOpen l g u e) :
    ReadsClosed l g u e := by
  intro w s' hw hs'
  refine h hw ?_ (.stop (operandItem_eq_none_iff.mpr ?_))
  · exact isOperatorIn_eq_false_of_subset (continuing_tighter_subset l) hs'
  · exact isOperatorIn_eq_false_of_subset (operators_subset_continuing hl) hs'

private theorem readsOpen_operand (hadv : Advances g) (hl : l.associates = true)
    (h : ReadsClosed l.tighter g u e) : ReadsOpen l g u e := by
  intro w s' others s'' hw hs' hothers
  rw [level_of_associates hl]
  exact (yields_leftAssociative (advances_level hadv _)).mpr ⟨e, s', others, h hw hs', hothers, rfl⟩

/-- What a chain derives last is the first of the operands that follow its left part. -/
private theorem readsOpen_chain (hop : op ∈ l.operators) (he : ReadsOpen l g u e)
    (hf : ReadsClosed l.tighter g v f) :
    ReadsOpen l g (u ++ .operator op :: v) (.binary ⟨op⟩ e f) := by
  intro w s' others s'' hw hs' hothers
  obtain ⟨w₁, w', rfl, hw₁, hw'⟩ := List.map_eq_append_iff.mp hw
  obtain ⟨t, w₂, rfl, ht, hw₂⟩ := List.map_eq_cons_iff.mp hw'
  have hcall : t.isOperatorIn l.operators = true := by
    rw [isOperatorIn_of_terminal ht, decide_eq_true hop]
  obtain ⟨item, hitem⟩ : ∃ item, operandItem l.operators (level l.tighter g) t = some item :=
    Option.ne_none_iff_exists'.mp fun h ↦
      absurd hcall (ne_true_of_eq_false (operandItem_eq_none_iff.mp h))
  have hread : Yields item (s'.prepend (t :: w₂)) (⟨op⟩, f) s' :=
    (yields_operandItem hitem).2.mpr ⟨congrArg Operator.mk (Token.text_eq ht).symm, hf hw₂ hs'⟩
  -- The operator and its right operand come first among the operands that follow `e`.
  have hrepeats : Repeats (operandItem l.operators (level l.tighter g)) (s'.prepend (t :: w₂))
      ((⟨op⟩, f) :: others) s'' := .step hitem hread hothers
  rw [Stream.prepend_append]
  refine he hw₁ ?_ hrepeats
  rw [Stream.current_prepend_cons, isOperatorIn_of_terminal ht]
  exact decide_eq_false (not_mem_continuing_tighter hop)

private theorem readsClosed_relation (h : ReadsClosed .addition g u e) :
    ReadsClosed .relation g u e := by
  intro w s' hw hs'
  refine yields_nonAssociative.mpr ⟨e, s', h hw ?_, ?_⟩
  · exact isOperatorIn_eq_false_of_subset (continuing_tighter_subset .relation) hs'
  · rw [if_neg]
    · exact ⟨rfl, rfl⟩
    · rw [isOperatorIn_eq_false_of_subset (List.subset_append_left _ _) hs']
      decide

private theorem readsClosed_compare (hop : op ∈ Level.relation.operators)
    (he : ReadsClosed .addition g u e) (hf : ReadsClosed .addition g v f) :
    ReadsClosed .relation g (u ++ .operator op :: v) (.binary ⟨op⟩ e f) := by
  intro w s' hw hs'
  obtain ⟨w₁, w', rfl, hw₁, hw'⟩ := List.map_eq_append_iff.mp hw
  obtain ⟨t, w₂, rfl, ht, hw₂⟩ := List.map_eq_cons_iff.mp hw'
  rw [Stream.prepend_append]
  refine yields_nonAssociative.mpr ⟨e, s'.prepend (t :: w₂), he hw₁ ?_, ?_⟩
  · rw [Stream.current_prepend_cons, isOperatorIn_of_terminal ht]
    exact decide_eq_false (not_mem_continuing_tighter hop)
  · have hsubset : Level.relation.operators ⊆ Operator.relations := by decide
    rw [Stream.current_prepend_cons, isOperatorIn_of_terminal ht, decide_eq_true (hsubset hop),
      if_pos rfl]
    refine ⟨f, hf hw₂ ?_, by rw [Token.text_eq ht]⟩
    exact isOperatorIn_eq_false_of_subset (continuing_tighter_subset .relation) hs'

/-- No factor starts with an operator. -/
private theorem exists_cons_of_derives_factor {n : Nat} (h : DerivesExpression .factor u e n) :
    ∃ t ts, u = t :: ts ∧ t.kind ≠ .operator := by
  generalize hl : Level.factor = l at h
  cases h with
  | atom hatom =>
    refine ⟨_, [], rfl, ?_⟩
    cases hatom <;> simp
  | group => exact ⟨_, _, rfl, by simp⟩
  | not | compare => exact absurd hl (by simp)
  | operand hne => exact absurd hl.symm hne
  | chain hassoc =>
    subst hl
    exact absurd hassoc (by decide)

/-- A factor alone is a negation. -/
private theorem readsClosed_negation {n : Nat} (hd : DerivesExpression .factor u e n)
    (h : ReadsClosed .factor g u e) : ReadsClosed .negation g u e := by
  intro w s' hw hs'
  obtain ⟨t, ts, rfl, ht⟩ := exists_cons_of_derives_factor hd
  have hread := h hw hs'
  obtain ⟨c, w, rfl, rfl, -⟩ := List.map_eq_cons_iff.mp hw
  refine yields_negation.mpr ?_
  rwa [if_neg]
  exact fun h ↦ ht (congrArg Terminal.kind h)

private theorem readsClosed_not (h : ReadsClosed .factor g u e) :
    ReadsClosed .negation g (.operator "!" :: u) (.unary ⟨"!"⟩ e) := by
  intro w s' hw hs'
  obtain ⟨t, w, rfl, ht, hw⟩ := List.map_eq_cons_iff.mp hw
  refine yields_negation.mpr ?_
  rw [Stream.current_prepend_cons, if_pos ht]
  exact ⟨e, h hw hs', rfl⟩

private theorem readsClosed_group {depth room : Nat}
    (h : ReadsClosed .disjunction (group (depth + 1) room) u e) :
    ReadsClosed .factor (group depth (room + 1))
      (.separator "(" :: (u ++ [.separator ")"])) e := by
  intro w s' hw hs'
  obtain ⟨t, w', rfl, ht, hw'⟩ := List.map_eq_cons_iff.mp hw
  obtain ⟨v, ts, rfl, hv, hts⟩ := List.map_eq_append_iff.mp hw'
  obtain ⟨t', rfl, ht'⟩ := List.map_eq_singleton_iff.mp hts
  refine (yields_factor_of_parenthesis ht).mpr (yields_group_succ.mpr ⟨t', ht', ?_⟩)
  rw [expression_eq, Stream.advance_prepend_cons, Stream.prepend_append]
  exact h hv (isOperatorIn_of_separator ht')

end

/-- What is derived at a level is read by the rule of the level. -/
theorem reads_of_derives {l : Level} {u : List Terminal} {n : Nat}
    (h : DerivesExpression l u e n) : ∀ depth room, n ≤ room →
      ReadsClosed l (group depth room) u e ∧
        (l.associates = true → ReadsOpen l (group depth room) u e) := by
  induction h with
  | atom h =>
    refine fun depth room _ ↦ ⟨fun w s' hw _ ↦ ?_, fun hl ↦ absurd hl (by decide)⟩
    obtain ⟨t, rfl, rfl⟩ := List.map_eq_singleton_iff.mp hw
    exact yields_factor_of_atom h
  | group _ ih =>
    intro depth room hn
    obtain ⟨room, rfl⟩ : ∃ r, room = r + 1 := ⟨room - 1, by omega⟩
    have hclosed := (ih (depth + 1) room (by omega)).1
    exact ⟨readsClosed_group hclosed, fun hl ↦ absurd hl (by decide)⟩
  | not _ ih =>
    intro depth room hn
    exact ⟨readsClosed_not (ih depth room hn).1, fun hl ↦ absurd hl (by decide)⟩
  | @operand l w e n hl h ih =>
    intro depth room hn
    have hclosed := (ih depth room hn).1
    have hopen : l.associates = true → ReadsOpen l (group depth room) w e :=
      fun ha ↦ readsOpen_operand (advances_group depth room) ha hclosed
    refine ⟨?_, hopen⟩
    cases l with
    | disjunction | conjunction | addition | term => exact (hopen rfl).closed rfl
    | relation => exact readsClosed_relation hclosed
    | negation => exact readsClosed_negation h hclosed
    | factor => exact absurd rfl hl
  | chain hl hop _ _ ihe ihf =>
    intro depth room hn
    have hleft := (ihe depth room (by omega)).2 hl
    have hopen := readsOpen_chain hop hleft (ihf depth room (by omega)).1
    exact ⟨hopen.closed hl, fun _ ↦ hopen⟩
  | compare hop _ _ ihe ihf =>
    intro depth room hn
    exact ⟨readsClosed_compare hop (ihe depth room (by omega)).1 (ihf depth room (by omega)).1,
      fun hl ↦ absurd hl (by decide)⟩

/-- What is derived as an expression is read as one if the token behind it is no operator. -/
theorem yields_of_derives {w : List Token} {n depth room : Nat}
    (h : DerivesExpression .disjunction (w.map Token.terminal) e n) (hn : n ≤ room)
    (hs' : s'.current.kind ≠ .operator) : Yields (expression depth room) (s'.prepend w) e s' := by
  rw [expression_eq]
  exact (reads_of_derives h depth room hn).1 rfl (by simp [Token.isOperatorIn, hs'])

end Kay.Rule
