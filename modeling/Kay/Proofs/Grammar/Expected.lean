import Kay.Proofs.Grammar.Failing

/-!
# What an error says is expected

Where a rule meets an unexpected token, what it has read so far is the beginning of a text that the
rule is for, and everything that the error names may stand there: behind each alternative there is a
way to go on to such a text (`Completes`).

A rule that is part of another one is carried into it by framing its texts with what has been read
in front and with the shortest way to go on behind (`Expects.frame`). So nothing has to be known of
an error but the rule that reports it, and each rule contributes its own expectations only.
-/

namespace Kay

open Grammar

/-! ## Terminals that may come -/

/-- Whether a terminal may be that of a token: the end of input, or something that can be scanned
and, if it is a literal, stands for an integer of the language. -/
def Terminal.Valid (t : Terminal) : Prop :=
  t = .endOfInput ∨
    Admissible t.kind t.text.toList ∧ (t.kind = .literal → decimalValue t.text ≤ 2147483647)

namespace Terminal

variable {text : String}

theorem valid_separator (h : text ∈ separators) : (separator text).Valid :=
  .inr ⟨.of_mem_separators h, nofun⟩

theorem valid_operator (h : text ∈ operators) : (operator text).Valid :=
  .inr ⟨.of_mem_operators h, nofun⟩

theorem valid_keyword (h : text ∈ keywords) : (keyword text).Valid :=
  .inr ⟨.of_mem_keywords h, nofun⟩

theorem valid_x : (identifier "x").Valid :=
  .inr ⟨.identifier ⟨⟨'x', [], rfl, by decide +kernel, by simp⟩, by decide⟩, nofun⟩

theorem valid_zero : (literal "0").Valid :=
  .inr ⟨.literal (by decide) (by simp [Text.isAsciiDigit]), fun _ ↦ by decide⟩

end Terminal

theorem valid_cons {t : Terminal} {w : List Terminal} (ht : t.Valid) (hw : ∀ u ∈ w, u.Valid) :
    ∀ u ∈ t :: w, u.Valid :=
  List.forall_mem_cons.mpr ⟨ht, hw⟩

theorem valid_singleton {t : Terminal} (ht : t.Valid) : ∀ u ∈ [t], u.Valid :=
  List.forall_mem_singleton.mpr ht

/-- Whether terminals are the beginning of a text in `X`, which may go on with any tokens. -/
def Viable (X : List Terminal → Prop) (w : List Terminal) : Prop :=
  ∃ v, (∀ t ∈ v, t.Valid) ∧ X (w ++ v)

section

variable {X Y : List Terminal → Prop} {w : List Terminal}

theorem viable_of (h : X w) : Viable X w :=
  ⟨[], fun _ ht ↦ absurd ht List.not_mem_nil, by rwa [List.append_nil]⟩

theorem viable_of_append {v : List Terminal} (hv : ∀ t ∈ v, t.Valid) (h : X (w ++ v)) :
    Viable X w :=
  ⟨v, hv, h⟩

/-- A beginning of a text that is itself the beginning of another one. -/
theorem Viable.trans (h : Viable Y w) (hYX : ∀ y, Y y → Viable X y) : Viable X w := by
  obtain ⟨v, hv, hy⟩ := h
  obtain ⟨z, hz, hx⟩ := hYX _ hy
  exact ⟨v ++ z, List.forall_mem_append.mpr ⟨hv, hz⟩, by rwa [← List.append_assoc]⟩

/-- Whether an alternative stands for a token, among those that may come. -/
def Alternative.Offers (a : Alternative) (t : Token) : Prop :=
  a.admits t = true ∧ t.terminal.Valid

/-- Whether an alternative stands for some token, and each token that it stands for is the beginning
of a text in `X`. -/
def Alternative.Starts (X : List Terminal → Prop) (a : Alternative) : Prop :=
  (∃ t, a.Offers t) ∧ ∀ t, a.Offers t → Viable X [t.terminal]

namespace Alternative

theorem Starts.trans {a : Alternative} (h : a.Starts Y) (hYX : ∀ y, Y y → Viable X y) :
    a.Starts X :=
  ⟨h.1, fun t ht ↦ (h.2 t ht).trans hYX⟩

theorem starts_lexeme {kind : TokenKind} {text : String} (hvalid : (⟨kind, text⟩ : Terminal).Valid)
    (h : Viable X [⟨kind, text⟩]) : (lexeme kind text).Starts X := by
  refine ⟨⟨⟨kind, text, ⟨0, 0⟩⟩, Token.is_iff.mpr rfl, hvalid⟩, fun t ht ↦ ?_⟩
  have hterminal : t.terminal = ⟨kind, text⟩ := Token.is_iff.mp ht.1
  rwa [hterminal]

theorem starts_kind {kind : TokenKind} {text : String} (hvalid : (⟨kind, text⟩ : Terminal).Valid)
    (h : ∀ text, (⟨kind, text⟩ : Terminal).Valid → Viable X [⟨kind, text⟩]) :
    (Alternative.kind kind).Starts X := by
  refine ⟨⟨⟨kind, text, ⟨0, 0⟩⟩, decide_eq_true rfl, hvalid⟩, fun t ht ↦ ?_⟩
  have hkind : t.kind = kind := of_decide_eq_true ht.1
  subst hkind
  exact h t.text ht.2

end Alternative

end

namespace Rule

variable {α β : Type} {s s' : Stream} {X Y : List Terminal → Prop}

/-! ## Expectations -/

/-- Whether, between `s` and `s'`, the beginning of a text in `X` was read that can go on with
anything that was expected. -/
structure Expects (X : List Terminal → Prop) (s : Stream) (expected : Expectation) (s' : Stream) :
    Prop where
  alternatives_ne : expected.alternatives ≠ []
  starts : ∃ w, s = s'.prepend w ∧
    ∀ a ∈ expected.alternatives, a.Starts fun x ↦ X (w.map Token.terminal ++ x)

/-- Texts in `X` become texts in `Y` if `u` is put in front, and something behind. -/
theorem Expects.frame {expected : Expectation} (h : Expects X s expected s') (u : List Token)
    (hXY : ∀ x, X x → Viable (fun y ↦ Y (u.map Token.terminal ++ y)) x) :
    Expects Y (s.prepend u) expected s' := by
  obtain ⟨w, rfl, hw⟩ := h.starts
  refine ⟨h.alternatives_ne, u ++ w, (Stream.prepend_append ..).symm, fun a ha ↦
    (hw a ha).trans fun x hx ↦ ?_⟩
  obtain ⟨z, hz, hy⟩ := hXY _ hx
  exact ⟨z, hz, by simpa using hy⟩

theorem Expects.mono {expected : Expectation} (h : Expects X s expected s')
    (hXY : ∀ x, X x → Y x) : Expects Y s expected s' :=
  h.frame [] fun x hx ↦ viable_of (hXY x hx)

/-- Whatever is unexpected to a rule, it has read the beginning of a text in `X`. -/
def Completes (X : List Terminal → Prop) (p : Rule α) (s : Stream) : Prop :=
  ∀ context expected found s', Fails p s (.unexpectedToken context expected found) s' →
    Expects X s expected s'

theorem Completes.mono {p : Rule α} (h : Completes X p s) (hXY : ∀ x, X x → Y x) :
    Completes Y p s :=
  fun _ _ _ _ hfails ↦ (h _ _ _ _ hfails).mono hXY

private theorem completes_of_not_fails {p : Rule α} (h : ∀ e s', ¬ Fails p s e s') :
    Completes X p s :=
  fun _ _ _ _ hfails ↦ absurd hfails (h _ _)

theorem completes_pure (a : α) : Completes X (pure a : Rule α) s :=
  completes_of_not_fails fun _ _ ↦ not_fails_pure

/-- A sequence, where every text of the first part is the beginning of one of the whole. -/
theorem completes_bind {p : Rule α} {f : α → Rule β} (hp : Completes Y p s)
    (hYX : ∀ y, Y y → Viable X y)
    (hf : ∀ a s', Yields p s a s' → ∃ u, s = s'.prepend u ∧
      Completes (fun x ↦ X (u.map Token.terminal ++ x)) (f a) s') : Completes X (p >>= f) s := by
  intro context expected found s' h
  rcases fails_bind.mp h with hfirst | ⟨a, s₁, ha, hrest⟩
  · exact (hp _ _ _ _ hfirst).frame [] hYX
  · -- What the first part has read stands in front of every text of the second one.
    obtain ⟨u, rfl, hcompletes⟩ := hf a s₁ ha
    exact (hcompletes _ _ _ _ hrest).frame u fun x hx ↦ viable_of hx

/-- A sequence, of which only the first part can fail. -/
theorem completes_bind_of_not_fails {p : Rule α} {f : α → Rule β} (hp : Completes X p s)
    (hf : ∀ a s e s', ¬ Fails (f a) s e s') : Completes X (p >>= f) s := by
  intro context expected found s' h
  rcases fails_bind.mp h with h | ⟨a, s₁, -, h⟩
  · exact hp _ _ _ _ h
  · exact absurd h (hf _ _ _ _)

theorem completes_bind_pure {p : Rule α} {f : α → β} (hp : Completes X p s) :
    Completes X (p >>= fun a ↦ pure (f a)) s :=
  completes_bind_of_not_fails hp fun _ _ _ _ ↦ not_fails_pure

theorem completes_current_bind {f : Token → Rule α} (h : Completes X (f s.current) s) :
    Completes X (current >>= f) s :=
  fun _ _ _ _ hfails ↦ h _ _ _ _ (fails_current_bind.mp hfails)

/-- Reading the token ahead, which is then part of every text. -/
theorem completes_advance_bind {f : Token → Rule α} (hend : s.current.kind ≠ .endOfInput)
    (h : Completes (fun x ↦ X (s.current.terminal :: x)) (f s.current) s.advance) :
    Completes X (advance >>= f) s := by
  intro context expected found s' hfails
  have hframe := (h _ _ _ _ (fails_advance_bind.mp hfails)).frame (Y := X) [s.current]
    fun x hx ↦ viable_of hx
  rwa [← Stream.eq_prepend_advance hend] at hframe

private theorem completes_nested {depth : Nat} {p : Rule α} (h : Completes X p s) :
    Completes X (nested depth p) s := h

theorem completes_advance_pure {a : α} : Completes X (advance >>= fun _ ↦ pure a) s :=
  completes_of_not_fails fun _ _ h ↦ absurd (fails_advance_bind.mp h) not_fails_pure

/-- Meeting an unexpected token where any of the alternatives is the beginning of a text in `X`. -/
theorem completes_unexpected {context : Context} {expected : Expectation}
    (hne : expected.alternatives ≠ []) (h : ∀ a ∈ expected.alternatives, a.Starts X) :
    Completes X (unexpected context expected : Rule α) s := by
  intro context' expected' found s' hfails
  obtain ⟨heq, rfl⟩ := fails_unexpected.mp hfails
  obtain ⟨-, rfl, -⟩ := SyntaxError.unexpectedToken.inj heq
  exact ⟨hne, [], rfl, h⟩

/-- Expecting a token that is the beginning of a text in `X`. -/
theorem completes_expect {a : Alternative} {context : Context} (h : a.Starts X) :
    Completes X (expect a context) s := by
  refine completes_current_bind ?_
  split
  · exact completes_of_not_fails fun _ _ ↦ not_fails_advance
  · exact completes_unexpected (List.cons_ne_nil _ _) fun b hb ↦ List.mem_singleton.mp hb ▸ h

theorem completes_expect_bind {a : Alternative} {context : Context} {f : Token → Rule β}
    (h : a.Starts X)
    (hnext : a.admits s.current = true → s.current.kind ≠ .endOfInput ∧
      Completes (fun x ↦ X (s.current.terminal :: x)) (f s.current) s.advance) :
    Completes X (expect a context >>= f) s := by
  intro context' expected found s' hfails
  rcases fails_bind.mp hfails with hfirst | ⟨t, s₁, ht, hrest⟩
  · exact completes_expect h _ _ _ _ hfirst
  · obtain ⟨hadmits, rfl, rfl⟩ := yields_expect.mp ht
    obtain ⟨hend, hcompletes⟩ := hnext hadmits
    exact completes_advance_bind hend hcompletes _ _ _ _ (fails_advance_bind.mpr hrest)

theorem completes_expectLexeme_bind {kind : TokenKind} {text : String} {context : Context}
    {f : Token → Rule β} (hkind : kind ≠ .endOfInput) (hvalid : (⟨kind, text⟩ : Terminal).Valid)
    (hhere : Viable X [⟨kind, text⟩])
    (hnext : Completes (fun x ↦ X (⟨kind, text⟩ :: x)) (f s.current) s.advance) :
    Completes X (expect (.lexeme kind text) context >>= f) s := by
  refine completes_expect_bind (Alternative.starts_lexeme hvalid hhere) fun hadmits ↦ ?_
  have hterminal : s.current.terminal = ⟨kind, text⟩ := Token.is_iff.mp hadmits
  refine ⟨(Token.kind_eq hterminal).trans_ne hkind, ?_⟩
  rwa [hterminal]

theorem completes_expectSeparator_bind {text : String} {context : Context} {f : Token → Rule β}
    (hmem : text ∈ separators) (hhere : Viable X [.separator text])
    (hnext : Completes (fun x ↦ X (.separator text :: x)) (f s.current) s.advance) :
    Completes X (expectSeparator text context >>= f) s :=
  completes_expectLexeme_bind (by decide) (Terminal.valid_separator hmem) hhere hnext

/-! ## Expressions -/

/-- Whether terminals are an expression of a level. -/
def IsExpression (l : Level) (w : List Terminal) : Prop := ∃ e n, DerivesExpression l w e n

/-- The shortest expression. -/
theorem isExpression_x (l : Level) : IsExpression l [.identifier "x"] := by
  have hx : DerivesExpression .factor [.identifier "x"] (.variable ⟨"x"⟩) 0 :=
    .atom (.reference "x")
  by_cases hl : l = .factor
  · exact ⟨_, _, hl ▸ hx⟩
  · exact ⟨_, _, DerivesExpression.of_negation (.operand (by decide) hx) hl⟩

/-- A rule for a level of expressions, of which it is known what it reads and what it expects. -/
structure Complete (l : Level) (room : Nat) (p : Rule Expression) : Prop where
  advances : Advances p
  reads : ReadsDerived l room p
  completes : ∀ {s}, s.Scanned → Completes (IsExpression l) p s

section

variable {room : Nat} {g p : Rule Expression} {l : Level} {u : List Terminal} {acc : Expression}
  {m : Nat}

private theorem completes_operator_bind {f : Operator → Rule β}
    (hend : s.current.kind ≠ .endOfInput)
    (h : Completes (fun x ↦ X (s.current.terminal :: x)) (f ⟨s.current.text⟩) s.advance) :
    Completes X (operator >>= f) s := by
  rw [operator, bind_assoc]
  refine completes_advance_bind hend ?_
  rwa [pure_bind]

/-- Behind some operands, one more is expected after each operator. -/
private theorem completes_operandItems (hl : l.associates = true) (hp : Complete l.tighter room p)
    (hs : s.Scanned) (hacc : DerivesExpression l u acc m) (hm : m ≤ room) :
    Completes (fun x ↦ IsExpression l (u ++ x)) (many (operandItem l.operators p)) s := by
  intro context expected found s' h
  have hbreaks := breaks_of_fails_many h
  clear h
  -- What has been joined so far is derived, and each operand extends the derivation.
  induction hbreaks generalizing u acc m with
  | @here s item hitem hfails =>
    obtain ⟨hop, rfl⟩ := eq_of_operandItem_eq_some hitem
    obtain ⟨op, hmem, hterminal⟩ := Token.isOperatorIn_iff.mp hop
    refine completes_operator_bind ((Token.kind_eq hterminal).trans_ne (by simp)) ?_ _ _ _ _ hfails
    rw [hterminal]
    refine completes_bind_pure ((hp.completes hs.advance).mono ?_)
    rintro x ⟨f, n, hf⟩
    exact ⟨_, _, .chain hl hmem hacc hf⟩
  | step hitem ho _ ih =>
    obtain ⟨hs₁, w, k, rfl, hnext, hk⟩ := derives_of_yields_item hl hp.reads hitem ho hs hacc hm
    refine (ih hs₁ hnext hk).frame w fun x hx ↦ viable_of ?_
    rwa [List.append_assoc] at hx

private theorem complete_leftAssociative (hl : l.associates = true)
    (hp : Complete l.tighter room p) :
    Complete l room (leftAssociative l.operators p) where
  advances := advances_leftAssociative hp.advances
  reads := readsDerived_leftAssociative hl hp.advances hp.reads
  completes := by
    intro s hs
    have hne := (Level.ne_factor_of_binary (.inl hl)).1
    refine completes_bind_pure (completes_bind (hp.completes hs) ?_ fun first s' hfirst ↦ ?_)
    · rintro x ⟨e, n, he⟩
      exact viable_of ⟨e, n, .operand hne he⟩
    · obtain ⟨u, m, rfl, hu, hm⟩ := hp.reads hs hfirst
      exact ⟨u, rfl, completes_bind_pure
        (completes_operandItems hl hp hs.of_prepend (.operand hne hu) hm)⟩

private theorem complete_relation (hp : Complete .addition room (addition g)) :
    Complete .relation room (relation g) where
  advances := advances_nonAssociative hp.advances
  reads := readsDerived_relation hp.reads
  completes := by
    intro s hs
    refine completes_bind (hp.completes hs) ?_ fun left s' hleft ↦ ?_
    · rintro x ⟨e, n, he⟩
      exact viable_of ⟨e, n, .operand (by decide) he⟩
    · obtain ⟨u, m, rfl, hu, hm⟩ := hp.reads hs hleft
      have hs' := hs.of_prepend
      refine ⟨u, rfl, completes_current_bind ?_⟩
      split
      · next hop =>
        obtain ⟨op, hmem, hterminal⟩ := Token.isOperatorIn_iff.mp hop
        have hmem' := (mem_relations_iff (hs'.mem_operators hterminal)).mp hmem
        refine completes_operator_bind ((Token.kind_eq hterminal).trans_ne (by simp)) ?_
        rw [hterminal]
        refine completes_bind_pure ((hp.completes hs'.advance).mono ?_)
        rintro x ⟨f, n, hf⟩
        exact ⟨_, _, .compare hmem' hu hf⟩
      · exact completes_pure _

/-- Whether all that a rule for parenthesised factors expects at a parenthesis leads to a factor. -/
def CompletesGroup (g : Rule Expression) : Prop :=
  ∀ {s}, s.Scanned → s.current.terminal = .separator "(" → Completes (IsExpression .factor) g s

theorem valid_parenthesised : ∀ t ∈ [Terminal.identifier "x", .separator ")"], t.Valid :=
  valid_cons Terminal.valid_x (valid_singleton (Terminal.valid_separator (by decide)))

theorem terminal_eq_of_kind {t : Token} {kind : TokenKind} (h : t.kind = kind) :
    t.terminal = ⟨kind, t.text⟩ := by
  rw [Token.terminal, h]

/-- Each of the alternatives for a factor is the beginning of one. -/
private theorem starts_factor :
    ∀ a ∈ Expectation.factor.alternatives, a.Starts (IsExpression .factor) := by
  have hatom : ∀ {t : Terminal} {e : Expression}, Atom t e → Viable (IsExpression .factor) [t] :=
    fun h ↦ viable_of ⟨_, _, .atom h⟩
  intro a ha
  simp only [Expectation.factor, Expectation.alternatives, List.cons_append, List.nil_append,
    List.mem_cons, List.not_mem_nil, or_false] at ha
  rcases ha with rfl | rfl | rfl | rfl | rfl
  · exact Alternative.starts_kind Terminal.valid_x fun name _ ↦ hatom (.reference name)
  · refine Alternative.starts_kind Terminal.valid_zero fun text hvalid ↦ ?_
    rcases hvalid with heq | ⟨-, hle⟩
    · exact absurd heq (by simp)
    · exact hatom (.literal (hle rfl))
  · exact Alternative.starts_lexeme (Terminal.valid_keyword (by decide)) (hatom .true)
  · exact Alternative.starts_lexeme (Terminal.valid_keyword (by decide)) (hatom .false)
  · obtain ⟨e, n, he⟩ := isExpression_x .disjunction
    exact Alternative.starts_lexeme (Terminal.valid_separator (by decide))
      (viable_of_append valid_parenthesised ⟨_, _, .group he⟩)

private theorem completes_factor (hg : CompletesGroup g) (hs : s.Scanned) :
    Completes (IsExpression .factor) (factor g) s := by
  refine completes_current_bind ?_
  split
  · exact completes_advance_pure
  · split
    · -- A literal that is out of range is no unexpected token.
      intro context expected found s' h
      have h' := fails_advance_bind.mp h
      split at h'
      · exact absurd h' not_fails_pure
      · exact absurd (fails_fail.mp h').1 (by simp)
    · split
      · exact completes_advance_pure
      · split
        · exact completes_advance_pure
        · split
          · next h => exact hg hs (Token.is_iff.mp h)
          · exact completes_unexpected (by decide) starts_factor

private theorem completes_negation (hg : CompletesGroup g) (hs : s.Scanned) :
    Completes (IsExpression .negation) (negation g) s := by
  refine completes_current_bind ?_
  split
  · next hop =>
    obtain ⟨op, hmem, hterminal⟩ := Token.isOperatorIn_iff.mp hop
    obtain rfl := List.mem_singleton.mp hmem
    refine completes_operator_bind ((Token.kind_eq hterminal).trans_ne (by simp)) ?_
    rw [hterminal]
    refine completes_bind_pure ((completes_factor hg hs.advance).mono ?_)
    rintro x ⟨e, n, he⟩
    exact ⟨_, _, .not he⟩
  · refine (completes_factor hg hs).mono ?_
    rintro x ⟨e, n, he⟩
    exact ⟨_, _, .operand (by decide) he⟩

/-- All levels are complete if the rule for a parenthesised factor is. -/
private theorem complete_level (hadv : Advances g) (hreads : ReadsGroup room g)
    (hg : CompletesGroup g) :
    Complete .disjunction room (level .disjunction g) := by
  have hnegation : Complete .negation room (negation g) :=
    ⟨advances_negation hadv, readsDerived_negation (readsDerived_factor hreads),
      completes_negation hg⟩
  have hterm : Complete .term room (term g) := complete_leftAssociative rfl hnegation
  have haddition : Complete .addition room (addition g) := complete_leftAssociative rfl hterm
  have hconjunction : Complete .conjunction room (conjunction g) :=
    complete_leftAssociative rfl (complete_relation haddition)
  exact complete_leftAssociative rfl hconjunction

theorem complete_expression (depth room : Nat) :
    Complete .disjunction room (expression depth room) := by
  rw [expression_eq]
  refine complete_level (advances_group _ _) (readsGroup_group _ _) ?_
  induction room generalizing depth with
  | zero =>
    intro s _ _ context expected found s' h
    exact absurd (fails_tooDeep.mp h).1 (by simp)
  | succ room ih =>
    intro s hs hopen
    have hex : Complete .disjunction room (expression (depth + 1) room) := by
      rw [expression_eq]
      exact complete_level (advances_group _ _) (readsGroup_group _ _) (ih (depth + 1))
    have hend : s.current.kind ≠ .endOfInput := (Token.kind_eq hopen).trans_ne (by simp)
    refine completes_nested (completes_advance_bind hend ?_)
    rw [hopen]
    refine completes_bind (hex.completes hs.advance) ?_ fun e s' he ↦ ?_
    · rintro y ⟨e, n, he⟩
      exact viable_of_append (valid_singleton (Terminal.valid_separator (by decide)))
        ⟨_, _, .group he⟩
    · obtain ⟨u, n, hu, hderives, -⟩ := hex.reads hs.advance he
      have hgroup : IsExpression .factor (.separator "(" :: (u.map Token.terminal ++
          [.separator ")"])) := ⟨e, n + 1, .group hderives⟩
      exact ⟨u, hu, completes_expectSeparator_bind (by decide) (viable_of hgroup)
        (completes_pure _)⟩

end

end Rule

end Kay
