import Kay.Proofs.Program.Operand

/-!
# Canonical text is read back exactly

What the parser makes of the text of any tree whose names are identifiers and whose operators are
signs: the normal form of the tree if the tree is readable and the nesting of its text within the
limit, and an error otherwise (`parseWithin_text_eq_ok_iff`).

That a readable tree is read follows from the grammar. That nothing else is accepted in its place
goes statement by statement along the run. What has been read is readable, so the grammar tells
where it ends, and the run can be followed from there.
-/

namespace Kay

open Grammar

/-! ## Statements -/

namespace Statement

open Rule

variable {b : Expression} {t f : Statement} {ms : List Statement}

/-- That a run over the terminals of a statement shows that the statement is readable and that there
is room for its nesting. -/
private def Checked (s : Statement) : Prop :=
  ∀ ⦃depth room : Nat⦄ ⦃w : List Token⦄ ⦃s' s'' : Stream⦄ ⦃r : Statement⦄,
    w.map Token.terminal = s.terminals → Yields (statement depth room) (s'.prepend w) r s'' →
    s.Over .readable ∧ s.printedNesting ≤ room

/-- The same of statements in sequence, where no `else` stands behind them. -/
private def MembersChecked (ms : List Statement) : Prop :=
  ∀ ⦃depth room : Nat⦄ ⦃w : List Token⦄ ⦃s' s'' : Stream⦄ ⦃rs : List Statement⦄,
    w.map Token.terminal = terminalsOf ms → s'.current.terminal ≠ .keyword "else" →
    Repeats (memberItem (statement depth room)) (s'.prepend w) rs s'' →
    MembersOver .readable ms ∧ printedNestingOf ms ≤ room

private theorem rest_eq_of_yields {s r : Statement} {depth room : Nat} {w : List Token}
    {s' s'' : Stream} (h : s.Over .readable ∧ s.printedNesting ≤ room) (hn : s.Normal)
    (hw : w.map Token.terminal = s.terminals)
    (helse : s.endsWithOpenIf = true → s'.current.terminal ≠ .keyword "else")
    (hread : Yields (statement depth room) (s'.prepend w) r s'') : s'' = s' :=
  (hread.unique (readsAs_of_derives (derives_terminals h.1 hn) depth room h.2 hw helse)).2

private theorem checked_guard {word : String} {context : Context} {depth room : Nat}
    {w : List Token} {v : List Terminal} {s' s₁ : Stream} {e : Expression}
    (hw : w.map Token.terminal =
      .keyword word :: .separator "(" :: (b.terminals ++ .separator ")" :: v))
    (h : Yields (guarded word context (expression depth room)) (s'.prepend w) e s₁) :
    (b.Over .readable ∧ b.printedNesting ≤ room) ∧
      ∃ w', w'.map Token.terminal = v ∧ s₁ = s'.prepend w' := by
  have hover : b.Over .readable ∧ b.printedNesting ≤ room := by
    obtain ⟨k, w₁, rfl, -, hw₁⟩ := List.map_eq_cons_iff.mp hw
    obtain ⟨o, w₂, rfl, -, hw₂⟩ := List.map_eq_cons_iff.mp hw₁
    obtain ⟨w₃, w₄, rfl, hw₃, -⟩ := List.map_eq_append_iff.mp hw₂
    obtain ⟨k', o', c, s₂, -, -, hc, hs₂, he⟩ := yields_guarded.mp h
    obtain rfl : s'.prepend (w₃ ++ w₄) = s₂ :=
      congrArg (fun s : Stream ↦ s.advance.advance) hs₂
    rw [Stream.prepend_append] at he
    refine (Expression.checked b).alone hw₃ ?_ he
    rw [Stream.current_prepend_cons, Token.kind_eq hc]
    decide
  obtain ⟨w', hw', hguard⟩ : ∃ w', w'.map Token.terminal = v ∧
      Yields (guarded word context (expression depth room)) (s'.prepend w) b (s'.prepend w') :=
    yields_guarded_of_derives (Expression.derives_terminals hover.1) hover.2 hw
  exact ⟨hover, w', hw', (h.unique hguard).2⟩

private theorem exists_cons_terminals (s : Statement) :
    ∃ t ts, s.terminals = t :: ts ∧ StartsStatement t := by
  cases s with
  | assignment target source => exact ⟨_, _, rfl, .inl rfl⟩
  | conditional test thenBranch elseBranch =>
    cases elseBranch <;> exact ⟨_, _, rfl, .inr (by decide)⟩
  | skip | loop | block => exact ⟨_, _, rfl, .inr (by decide)⟩

private theorem current_of_terminalsOf {w : List Token} {s' : Stream}
    (hw : w.map Token.terminal = terminalsOf ms) :
    StartsStatement (s'.prepend w).current.terminal ∨ s'.prepend w = s' := by
  cases ms with
  | nil =>
    obtain rfl := List.map_eq_nil_iff.mp hw
    exact .inr rfl
  | cons m ms =>
    obtain ⟨u, us, hu, hstart⟩ := exists_cons_terminals m
    rw [terminalsOf, hu] at hw
    obtain ⟨c, cs, rfl, rfl, -⟩ := List.map_eq_cons_iff.mp hw
    exact .inl hstart

/-- A statement takes one level, and the rest is a matter of its form. -/
private theorem Checked.of_anyStatement {s : Statement} (h : ∀ ⦃depth room : Nat⦄ ⦃w : List Token⦄
    ⦃s' s'' : Stream⦄ ⦃r : Statement⦄, w.map Token.terminal = s.terminals →
      Yields (anyStatement (expression depth room) (statement depth room)) (s'.prepend w) r s'' →
      s.Over .readable ∧ s.printedNesting ≤ room + 1) : s.Checked := by
  intro depth room w s' s'' r hw hread
  cases room with
  | zero => exact absurd hread not_yields_statement_zero
  | succ room => exact h hw (yields_statement_succ.mp hread)

private theorem checked_assignment (x : Variable) (e : Expression) : (assignment x e).Checked := by
  refine .of_anyStatement fun depth room w s' s'' r hw hread ↦ ?_
  obtain ⟨x', w₁, rfl, hx, hw₁⟩ := List.map_eq_cons_iff.mp hw
  obtain ⟨a, w₂, rfl, -, hw₂⟩ := List.map_eq_cons_iff.mp hw₁
  obtain ⟨w₃, w₄, rfl, hw₃, -⟩ := List.map_eq_append_iff.mp hw₂
  obtain ⟨x'', a', c, s₁, e', -, -, hc, hs₁, he, -⟩ :=
    yields_assignment.mp ((yields_anyStatement_of_identifier hx).mp hread)
  obtain rfl : s'.prepend (w₃ ++ w₄) = s₁ := congrArg (fun s : Stream ↦ s.advance.advance) hs₁
  rw [Stream.prepend_append] at he
  have hclose : (s''.prepend [c]).current.kind ≠ .operator := by
    rw [Stream.current_prepend_cons, Token.kind_eq hc]
    decide
  obtain ⟨hover, hn⟩ := (Expression.checked e).alone hw₃ hclose he
  exact ⟨⟨trivial, hover⟩, Nat.succ_le_succ hn⟩

private theorem checked_ifThen (ht : t.Checked) : (conditional b t none).Checked := by
  refine .of_anyStatement fun depth room w s' s'' r hw hread ↦ ?_
  obtain ⟨k, ts, rfl, hk, -⟩ := List.map_eq_cons_iff.mp hw
  rw [yields_anyStatement_of_if hk] at hread
  obtain ⟨b', s₁, t', s₂, hb, hreadt, -⟩ := yields_conditional.mp hread
  obtain ⟨⟨hoverb, hnb⟩, w', hw', rfl⟩ := checked_guard hw hb
  obtain ⟨hovert, hnt⟩ := ht hw' hreadt
  exact ⟨⟨hoverb, hovert⟩, Nat.succ_le_succ (max_le hnb hnt)⟩

private theorem checked_ifThenElse (ht : t.Checked) (hn : t.Normal)
    (hopen : t.endsWithOpenIf = false) (hf : f.Checked) : (conditional b t (some f)).Checked := by
  refine .of_anyStatement fun depth room w s' s'' r hw hread ↦ ?_
  obtain ⟨k, ts, rfl, hk, -⟩ := List.map_eq_cons_iff.mp hw
  rw [yields_anyStatement_of_if hk] at hread
  obtain ⟨b', s₁, t', s₂, hb, hreadt, hrest⟩ := yields_conditional.mp hread
  obtain ⟨⟨hoverb, hnb⟩, w', hw', rfl⟩ := checked_guard hw hb
  obtain ⟨w₁, w₂, rfl, hw₁, hw₂⟩ := List.map_eq_append_iff.mp hw'
  obtain ⟨c, w₃, rfl, hc, hw₃⟩ := List.map_eq_cons_iff.mp hw₂
  rw [Stream.prepend_append] at hreadt
  have hovert := ht hw₁ hreadt
  -- The first branch cannot take the `else`, so the run has come to it.
  obtain rfl : s₂ = s'.prepend (c :: w₃) :=
    rest_eq_of_yields hovert hn hw₁ (fun h ↦ absurd h (ne_true_of_eq_false hopen)) hreadt
  rw [Stream.current_prepend_cons, if_pos hc] at hrest
  obtain ⟨u, hreadf, -⟩ := hrest
  obtain ⟨hoverf, hnf⟩ := hf hw₃ hreadf
  refine ⟨⟨hoverb, hovert.1, hoverf⟩, ?_⟩
  rw [printedNesting, if_neg (ne_true_of_eq_false hopen)]
  exact Nat.succ_le_succ (max_le hnb (max_le hovert.2 hnf))

private theorem checked_loop (ht : t.Checked) : (loop b t).Checked := by
  refine .of_anyStatement fun depth room w s' s'' r hw hread ↦ ?_
  obtain ⟨k, ts, rfl, hk, -⟩ := List.map_eq_cons_iff.mp hw
  rw [yields_anyStatement_of_while hk] at hread
  obtain ⟨b', s₁, t', hb, hreadt, -⟩ := yields_loop.mp hread
  obtain ⟨⟨hoverb, hnb⟩, w', hw', rfl⟩ := checked_guard hw hb
  obtain ⟨hovert, hnt⟩ := ht hw' hreadt
  exact ⟨⟨hoverb, hovert⟩, Nat.succ_le_succ (max_le hnb hnt)⟩

private theorem checked_block (hms : MembersChecked ms) : (block ms).Checked := by
  refine .of_anyStatement fun depth room w s' s'' r hw hread ↦ ?_
  obtain ⟨o, w₁, rfl, ho, hw₁⟩ := List.map_eq_cons_iff.mp hw
  obtain ⟨w₂, w₃, rfl, hw₂, hw₃⟩ := List.map_eq_append_iff.mp hw₁
  obtain ⟨c, rfl, hc⟩ := List.map_eq_singleton_iff.mp hw₃
  obtain ⟨o', c', s₁, rs, -, -, hs₁, hrs, -⟩ :=
    (yields_block (progressive_memberItem _ _)).mp ((yields_anyStatement_of_brace ho).mp hread)
  obtain rfl : s'.prepend (w₂ ++ [c]) = s₁ := congrArg Stream.advance hs₁
  rw [Stream.prepend_append] at hrs
  have helse : (s'.prepend [c]).current.terminal ≠ .keyword "else" := by
    rw [Stream.current_prepend_cons, hc]
    decide
  obtain ⟨hover, hn⟩ := hms hw₂ helse hrs
  exact ⟨hover, Nat.succ_le_succ hn⟩

private theorem membersChecked_cons (ht : t.Checked) (hn : t.Normal) (hms : MembersChecked ms) :
    MembersChecked (t :: ms) := by
  intro depth room w s' s'' rs hw helse hread
  obtain ⟨w₁, w₂, rfl, hw₁, hw₂⟩ := List.map_eq_append_iff.mp hw
  rw [Stream.prepend_append] at hread
  have hnext : (s'.prepend w₂).current.terminal ≠ .keyword "else" := by
    rcases current_of_terminalsOf hw₂ with hstart | heq
    · exact hstart.ne (by decide) (by decide)
    · rwa [heq]
  obtain ⟨u, us, hu, hstart⟩ := exists_cons_terminals t
  obtain ⟨c, cs, rfl, rfl, -⟩ := List.map_eq_cons_iff.mp (hw₁.trans hu)
  cases hread with
  | stop hnone =>
    rcases memberItem_eq_none_iff.mp hnone with hclose | hend
    · exact absurd hclose (hstart.ne (by decide) (by decide))
    · exact absurd hend hstart.kind_ne
  | step hitem hreadt hrest =>
    obtain rfl := eq_of_memberItem_eq_some hitem
    have hovert := ht hw₁ hreadt
    obtain rfl := rest_eq_of_yields hovert hn hw₁ (fun _ ↦ hnext) hreadt
    obtain ⟨hover, hnms⟩ := hms hw₂ helse hrest
    exact ⟨⟨hovert.1, hover⟩, max_le hovert.2 hnms⟩

mutual

private theorem checked : ∀ {s : Statement}, s.Normal → s.Checked
  | skip, _ => .of_anyStatement fun _ room _ _ _ _ _ _ ↦
    ⟨trivial, Nat.succ_le_succ (Nat.zero_le room)⟩
  | assignment x e, _ => checked_assignment x e
  | conditional _ t none, hn => checked_ifThen (checked (s := t) hn)
  | conditional _ _ (some _), hn =>
    checked_ifThenElse (checked hn.1) hn.1 hn.2.1 (checked hn.2.2)
  | loop _ t, hn => checked_loop (checked (s := t) hn)
  | block ms, hn =>
    have hms : MembersChecked ms := membersChecked hn
    checked_block hms

private theorem membersChecked : ∀ {ms : List Statement}, MembersNormal ms → MembersChecked ms
  | [], _ => fun _ _ _ _ _ _ _ _ _ ↦ ⟨trivial, Nat.zero_le _⟩
  | _ :: _, hn => membersChecked_cons (checked hn.1) hn.1 (membersChecked hn.2)

end

end Statement

/-! ## Programs -/

namespace Program

open Rule

variable {p q : Program} {limit : Nat}

/-- That a run over the terminals of a normal program succeeds shows that the program is readable
and that its nesting is within the limit. -/
private theorem over_of_yields {s s' : Stream} (hn : p.Normal)
    (hs : s.tokens.map Token.terminal = p.terminals) (h : Yields (program limit) s q s') :
    p.Over .readable ∧ p.printedNesting ≤ limit := by
  obtain ⟨tokens, stop⟩ := s
  obtain ⟨k, w₁, rfl, -, hw₁⟩ := List.map_eq_cons_iff.mp hs
  obtain ⟨o, w₂, rfl, -, hw₂⟩ := List.map_eq_cons_iff.mp hw₁
  obtain ⟨w₃, w₄, rfl, hw₃, hw₄⟩ := List.map_eq_append_iff.mp hw₂
  obtain ⟨w₅, w₆, rfl, hw₅, hw₆⟩ := List.map_eq_append_iff.mp hw₄
  obtain ⟨c, rfl, hc⟩ := List.map_eq_singleton_iff.mp hw₆
  obtain ⟨k', o', c', s₁, s₂, s₃, groups, rs, -, -, -, hs₁, hgroups, hrs, -⟩ :=
    yields_program.mp h
  obtain rfl : ((⟨[c], stop⟩ : Stream).prepend w₅).prepend w₃ = s₁ :=
    congrArg (fun s : Stream ↦ s.advance.advance) hs₁
  have hclose : (⟨[c], stop⟩ : Stream).current.terminal = .separator "\x7d" := hc
  have hbody : typeItem ((⟨[c], stop⟩ : Stream).prepend w₅).current = none := by
    rcases Statement.current_of_terminalsOf hw₅ with hstart | heq
    · exact hstart.typeItem_eq_none
    · rw [heq, typeItem_eq_none_iff, hclose]
      simp
  obtain ⟨groups', -, hgroups'⟩ :=
    repeats_of_derivesDeclarations (derives_declarations p.declarations) hw₃ hbody
  obtain ⟨-, rfl⟩ := hgroups.unique progressive_typeItem hgroups'
  have helse : (⟨[c], stop⟩ : Stream).current.terminal ≠ .keyword "else" := by
    rw [hclose]
    decide
  obtain ⟨hover, hnesting⟩ := Statement.membersChecked hn hw₅ helse hrs
  exact ⟨⟨fun _ _ ↦ trivial, hover⟩, hnesting⟩

/-- Under any limit, the text of a program is read as its normal form, or not at all. -/
theorem parseWithin_text_eq_ok_iff (h : p.Over .writable) (level : Nat) :
    parseWithin limit (p.text level) = .ok q ↔
      q = p.normalized ∧ p.Over .readable ∧ p.printedNesting ≤ limit := by
  have hn := p.normal_normalized
  have htokens := terminals_text (over_normalized.mpr h) hn level
  rw [text_normalized] at htokens
  have hread : p.Over .readable → p.printedNesting ≤ limit →
      parseWithin limit (p.text level) = .ok p.normalized := by
    intro hover hnesting
    rw [parseWithin_eq_ok_iff_derives, map_terminal_scan, htokens]
    refine ⟨p.printedNesting, ?_, hnesting⟩
    rw [← printedNesting_normalized]
    exact derives_terminals (over_normalized.mpr hover) hn
  constructor
  · -- The run shows that the program is readable; what is then read is known from the grammar.
    intro hq
    obtain ⟨s', hyields⟩ := parseWithin_eq_ok_iff_yields.mp hq
    obtain ⟨hover, hnesting⟩ :=
      over_of_yields hn ((map_terminal_ofSource _).trans htokens) hyields
    rw [over_normalized] at hover
    rw [printedNesting_normalized] at hnesting
    rw [hread hover hnesting, Except.ok.injEq] at hq
    exact ⟨hq.symm, hover, hnesting⟩
  · rintro ⟨rfl, hover, hnesting⟩
    exact hread hover hnesting

/-- The text of a program at any level of indentation is read exactly if the program is readable
and its nesting within the limit. What is then read differs from the program by the braces that the
text adds, and it has the same text. -/
theorem parse_text (h : p.Over .writable) (level : Nat) :
    ((∃ q, parse (p.text level) = .ok q) ↔
      p.Over .readable ∧ p.printedNesting ≤ maxNesting) ∧
    ∀ q, parse (p.text level) = .ok q → q = p.normalized ∧ q.text level = p.text level := by
  have hread : ∀ q, parse (p.text level) = .ok q ↔
      q = p.normalized ∧ p.Over .readable ∧ p.printedNesting ≤ maxNesting :=
    fun _ ↦ parseWithin_text_eq_ok_iff h level
  refine ⟨⟨?_, fun hp ↦ ⟨_, (hread _).mpr ⟨rfl, hp⟩⟩⟩, ?_⟩
  · rintro ⟨q, hq⟩
    exact ((hread q).mp hq).2
  · intro q hq
    obtain ⟨rfl, -⟩ := (hread q).mp hq
    exact ⟨rfl, text_normalized p level⟩

/-- A conditional whose first branch is a loop over a conditional that could take the `else`. -/
def danglingElse : Program where
  declarations := [⟨.integer, ⟨"x"⟩⟩]
  body := ⟨[.conditional (.binary ⟨"<"⟩ (.variable ⟨"x"⟩) (.value (.integer 3)))
    (.loop (.unary ⟨"!"⟩ (.value (.boolean true)))
      (.conditional (.value (.boolean false)) .skip none))
    (some (.assignment ⟨"x"⟩ (.variable ⟨"x"⟩)))]⟩

/-- With the `else` on the outer conditional, the braces make a difference. -/
theorem parse_text_danglingElse : danglingElse.Over .writable ∧
    (∃ q, parse (danglingElse.text 1) = .ok q) ∧
    (∀ q, parse (danglingElse.text 1) = .ok q → q ≠ danglingElse) := by
  have hname : IsIdentifier "x".toList :=
    ⟨⟨'x', [], rfl, by decide +kernel, by simp⟩, by decide⟩
  have hover : danglingElse.Over .writable := by
    refine ⟨by simpa [danglingElse, Vocabulary.writable] using hname, ?_⟩
    refine ⟨⟨⟨.inl (by decide), hname, trivial⟩, ⟨⟨.inl (by decide), trivial⟩, trivial, trivial⟩,
      hname, hname⟩, trivial⟩
  have hreadable : danglingElse.Over .readable := by
    refine ⟨fun _ _ ↦ trivial, ⟨⟨?_, trivial, ?_⟩, ⟨⟨rfl, trivial⟩, trivial, trivial⟩,
      trivial, trivial⟩, trivial⟩
    · exact List.mem_of_elem_eq_true (by decide)
    · show 0 ≤ Int32.toInt 3
      decide
  obtain ⟨hread, hnormal⟩ := parse_text hover 1
  refine ⟨hover, hread.mpr ⟨hreadable, by decide⟩, fun q hq ↦ ?_⟩
  obtain ⟨rfl, -⟩ := hnormal q hq
  decide

end Program

end Kay
