import Kay.Proofs.Grammar.Expected
import Kay.Proofs.Grammar.Program

/-!
# Every error is met in the beginning of a program

What statements, declarations and whole programs expect, form by form. A form that was begun can
always be ended: `x` is an expression, `;` is a statement, and what was opened can be closed. So
wherever an unexpected token is met in a program, what was read is the beginning of one, and so is
what was read with anything that was expected behind it (`completes_program`).
-/

namespace Kay.Rule

open Grammar

variable {α β : Type} {s s' : Stream} {X Y : List Terminal → Prop}

/-! ## Statements -/

/-- Whether terminals are a statement. -/
def IsStatement (w : List Terminal) : Prop := ∃ r n, DerivesStatement w r n

/-- Whether terminals are statements in sequence. -/
def IsStatements (w : List Terminal) : Prop := ∃ ms n, DerivesStatements w ms n

/-- A rule for statements, of which it is known what it reads and what it expects. -/
structure CompleteStatement (room : Nat) (p : Rule Statement) : Prop where
  reads : ReadsStatement room p
  completes : ∀ {s}, s.Scanned → Completes IsStatement p s

section

variable {room : Nat} {ex : Rule Expression} {st : Rule Statement}

/-- Whether terminals are a keyword and a test behind it. -/
private def IsGuarded (word : String) (w : List Terminal) : Prop :=
  ∃ u, IsExpression .disjunction u ∧
    w = .keyword word :: .separator "(" :: (u ++ [.separator ")"])

private theorem completes_guarded {word : String} {context : Context} (hword : word ∈ keywords)
    (hex : Complete .disjunction room ex) (hs : s.Scanned) :
    Completes (IsGuarded word) (guarded word context ex) s := by
  have hopen : (Terminal.separator "(").Valid := Terminal.valid_separator (by decide)
  have hclose : (Terminal.separator ")").Valid := Terminal.valid_separator (by decide)
  have hx : IsGuarded word [.keyword word, .separator "(", .identifier "x", .separator ")"] :=
    ⟨_, isExpression_x .disjunction, rfl⟩
  refine completes_expectLexeme_bind (by decide) (Terminal.valid_keyword hword)
    (viable_of_append (valid_cons hopen valid_parenthesised) hx) ?_
  refine completes_expectSeparator_bind (by decide) (viable_of_append valid_parenthesised hx) ?_
  refine completes_bind (hex.completes hs.advance.advance) ?_ fun b s' hb ↦ ?_
  · intro y hy
    exact viable_of_append (valid_singleton hclose) ⟨y, hy, rfl⟩
  · obtain ⟨u, n, hu, hderives, -⟩ := hex.reads hs.advance.advance hb
    have hguarded : IsGuarded word (.keyword word :: .separator "(" :: (u.map Token.terminal ++
        [.separator ")"])) := ⟨_, ⟨b, n, hderives⟩, rfl⟩
    exact ⟨u, hu, completes_expectSeparator_bind (by decide) (viable_of hguarded)
      (completes_pure _)⟩

private theorem completes_conditional (hex : Complete .disjunction room ex)
    (hst : CompleteStatement room st) (hs : s.Scanned) :
    Completes IsStatement (conditional ex st) s := by
  have hsemi : (Terminal.separator ";").Valid := Terminal.valid_separator (by decide)
  refine completes_bind (completes_guarded (by decide) hex hs) ?_ fun b s₁ hb ↦ ?_
  · rintro _ ⟨u, ⟨e, n, he⟩, rfl⟩
    exact viable_of_append (valid_singleton hsemi) ⟨_, _, by simpa using .ifThen he .skip⟩
  · obtain ⟨w, w', m, rfl, hw, hw', -⟩ := derives_of_yields_guarded hex.reads hs hb
    have hs₁ := hs.of_prepend
    refine ⟨w, rfl, ?_⟩
    rw [hw]
    refine completes_bind (hst.completes hs₁) ?_ fun t s₂ ht ↦ ?_
    · rintro y ⟨r, n, hr⟩
      exact viable_of ⟨_, _, by simpa using .ifThen hw' hr⟩
    · obtain ⟨u, n, rfl, hu, -, hopen⟩ := hst.reads hs₁ ht
      refine ⟨u, rfl, completes_current_bind ?_⟩
      split
      · next helse =>
        have hterminal := Token.is_iff.mp helse
        refine completes_advance_bind ((Token.kind_eq hterminal).trans_ne (by simp)) ?_
        refine completes_bind_pure ((hst.completes hs₁.of_prepend.advance).mono ?_)
        rintro x ⟨f, k, hf⟩
        -- An open `if` in the first branch would have read this `else`.
        have hclosed : t.endsWithOpenIf = false := by
          rw [← Bool.not_eq_true]
          exact fun h ↦ hopen h hterminal
        rw [hterminal]
        exact ⟨_, _, by simpa using .ifThenElse hw' hu hclosed hf⟩
      · exact completes_pure _

private theorem completes_loop (hex : Complete .disjunction room ex)
    (hst : CompleteStatement room st) (hs : s.Scanned) : Completes IsStatement (loop ex st) s := by
  have hsemi : (Terminal.separator ";").Valid := Terminal.valid_separator (by decide)
  refine completes_bind (completes_guarded (by decide) hex hs) ?_ fun b s₁ hb ↦ ?_
  · rintro _ ⟨u, ⟨e, n, he⟩, rfl⟩
    exact viable_of_append (valid_singleton hsemi) ⟨_, _, by simpa using .loop he .skip⟩
  · obtain ⟨w, w', m, rfl, hw, hw', -⟩ := derives_of_yields_guarded hex.reads hs hb
    refine ⟨w, rfl, completes_bind_pure ((hst.completes hs.of_prepend).mono ?_)⟩
    rintro x ⟨f, k, hf⟩
    rw [hw]
    exact ⟨_, _, by simpa using .loop hw' hf⟩

private theorem completes_assignment (hex : Complete .disjunction room ex) (hs : s.Scanned) :
    Completes IsStatement (assignment ex) s := by
  have hsemi : (Terminal.separator ";").Valid := Terminal.valid_separator (by decide)
  have hassign : (Terminal.operator ":=").Valid := Terminal.valid_operator (by decide)
  have hvalid : ∀ t ∈ [Terminal.identifier "x", .separator ";"], t.Valid :=
    valid_cons Terminal.valid_x (valid_singleton hsemi)
  obtain ⟨e, n, he⟩ := isExpression_x .disjunction
  have hx : ∀ name, IsStatement [.identifier name, .operator ":=", .identifier "x",
      .separator ";"] := fun name ↦ ⟨_, _, .assignment name he⟩
  refine completes_expect_bind (Alternative.starts_kind Terminal.valid_x fun name _ ↦
    viable_of_append (valid_cons hassign hvalid) (hx name)) fun hadmits ↦ ?_
  have hkind : s.current.kind = .identifier := of_decide_eq_true hadmits
  refine ⟨hkind.trans_ne (by decide), ?_⟩
  rw [terminal_eq_of_kind hkind]
  refine completes_expectLexeme_bind (by decide) hassign (viable_of_append hvalid (hx _)) ?_
  refine completes_bind (hex.completes hs.advance.advance) ?_ fun f s' hf ↦ ?_
  · rintro y ⟨f, k, hf⟩
    exact viable_of_append (valid_singleton hsemi) ⟨_, _, .assignment _ hf⟩
  · obtain ⟨u, k, hu, hderives, -⟩ := hex.reads hs.advance.advance hf
    have hstatement : IsStatement (.identifier s.current.text :: .operator ":=" ::
        (u.map Token.terminal ++ [.separator ";"])) := ⟨_, _, .assignment _ hderives⟩
    exact ⟨u, hu, completes_expectSeparator_bind (by decide) (viable_of hstatement)
      (completes_pure _)⟩

/-- Statements in sequence, of which one may fail. -/
private theorem completes_statements (hst : CompleteStatement room st) (hs : s.Scanned) :
    Completes IsStatements (statements st) s := by
  intro context expected found s' h
  have hbreaks : Breaks (memberItem st) _ s' s := breaks_of_fails_many h
  clear h
  induction hbreaks with
  | here hitem hfails =>
    obtain rfl := eq_of_memberItem_eq_some hitem
    refine (hst.completes hs _ _ _ _ hfails).mono ?_
    rintro x ⟨r, n, hr⟩
    exact ⟨[r], max n 0, by simpa using DerivesStatements.cons hr .nil⟩
  | step hitem hr _ ih =>
    obtain rfl := eq_of_memberItem_eq_some hitem
    obtain ⟨u, m, rfl, hu, -, -⟩ := hst.reads hs hr
    refine (ih hs.of_prepend).frame u ?_
    rintro x ⟨ms, n, hms⟩
    exact viable_of ⟨_, _, .cons hu hms⟩

private theorem completes_block (hst : CompleteStatement room st)
    (hprogress : Progressive (memberItem st)) (hs : s.Scanned) :
    Completes IsStatement (block st) s := by
  have hclose : ∀ t ∈ [Terminal.separator "\x7d"], t.Valid :=
    valid_singleton (Terminal.valid_separator (by decide))
  refine completes_expectSeparator_bind (by decide) (viable_of_append hclose ⟨_, _, .block .nil⟩) ?_
  refine completes_bind (completes_statements hst hs.advance) ?_ fun ms s' hms ↦ ?_
  · rintro y ⟨ms, n, hms⟩
    exact viable_of_append hclose ⟨_, _, .block hms⟩
  · obtain ⟨w, n, hw, hderives, -⟩ :=
      derives_of_repeats_members hst.reads ((yields_many hprogress).mp hms) hs.advance
    have hstatement : IsStatement (.separator "\x7b" :: (w.map Token.terminal ++
        [.separator "\x7d"])) := ⟨_, _, .block hderives⟩
    exact ⟨w, hw, completes_expectSeparator_bind (by decide) (viable_of hstatement)
      (completes_pure _)⟩

/-- Each of the alternatives for a statement is the beginning of one. -/
private theorem starts_statement :
    ∀ a ∈ Expectation.statement.alternatives, a.Starts IsStatement := by
  have hsemi : (Terminal.separator ";").Valid := Terminal.valid_separator (by decide)
  have hopen : (Terminal.separator "(").Valid := Terminal.valid_separator (by decide)
  have hclose : (Terminal.separator ")").Valid := Terminal.valid_separator (by decide)
  have hbrace : (Terminal.separator "\x7d").Valid := Terminal.valid_separator (by decide)
  have hassign : (Terminal.operator ":=").Valid := Terminal.valid_operator (by decide)
  have hguarded : ∀ t ∈ [Terminal.separator "(", .identifier "x", .separator ")", .separator ";"],
      t.Valid :=
    valid_cons hopen (valid_cons Terminal.valid_x (valid_cons hclose (valid_singleton hsemi)))
  obtain ⟨e, n, he⟩ := isExpression_x .disjunction
  intro a ha
  simp only [Expectation.statement, Expectation.alternatives, List.cons_append, List.nil_append,
    List.mem_cons, List.not_mem_nil, or_false] at ha
  rcases ha with rfl | rfl | rfl | rfl | rfl
  · exact Alternative.starts_lexeme hsemi (viable_of ⟨_, _, .skip⟩)
  · exact Alternative.starts_lexeme (Terminal.valid_separator (by decide))
      (viable_of_append (valid_singleton hbrace) ⟨_, _, .block .nil⟩)
  · exact Alternative.starts_lexeme (Terminal.valid_keyword (by decide))
      (viable_of_append hguarded ⟨_, _, .ifThen he .skip⟩)
  · exact Alternative.starts_lexeme (Terminal.valid_keyword (by decide))
      (viable_of_append hguarded ⟨_, _, .loop he .skip⟩)
  · exact Alternative.starts_kind Terminal.valid_x fun name _ ↦
      viable_of_append (valid_cons hassign (valid_cons Terminal.valid_x (valid_singleton hsemi)))
        ⟨_, _, .assignment name he⟩

private theorem completes_anyStatement (hex : Complete .disjunction room ex)
    (hst : CompleteStatement room st) (hprogress : Progressive (memberItem st)) (hs : s.Scanned) :
    Completes IsStatement (anyStatement ex st) s := by
  refine completes_current_bind ?_
  split
  · exact completes_advance_pure
  · split
    · exact completes_block hst hprogress hs
    · split
      · exact completes_conditional hex hst hs
      · split
        · exact completes_loop hex hst hs
        · split
          · exact completes_assignment hex hs
          · exact completes_unexpected (by decide) starts_statement

private theorem completeStatement_statement (depth room : Nat) :
    CompleteStatement room (statement depth room) := by
  induction room generalizing depth with
  | zero =>
    refine ⟨readsStatement_statement depth 0, fun _ context expected found s' h ↦ ?_⟩
    exact absurd (fails_tooDeep.mp h).1 (by simp)
  | succ room ih =>
    refine ⟨readsStatement_statement depth _, fun {s} hs context expected found s' h ↦ ?_⟩
    rw [statement, fails_nested, fails_current_bind, fails_report_bind] at h
    exact completes_anyStatement (complete_expression _ _) (ih (depth + 1))
      (progressive_memberItem _ _) hs _ _ _ _ h

end

/-! ## Declarations -/

section

variable {ty : VarType}

/-- Whether terminals are declarations. -/
def IsDeclarations (w : List Terminal) : Prop := ∃ ds, DerivesDeclarations w ds

/-- Whether terminals are names of one type and the semicolon behind them. -/
private def IsNames (ty : VarType) (w : List Terminal) : Prop :=
  ∃ u ds, DerivesNames ty u ds ∧ w = u ++ [.separator ";"]

private theorem completes_declaredName (h : ∀ name, X [.identifier name]) :
    Completes X (declaredName ty) s := by
  have hname : (Alternative.kind .identifier).Starts X :=
    Alternative.starts_kind Terminal.valid_x fun name _ ↦ viable_of (h name)
  exact completes_bind_of_not_fails (completes_expect hname) fun _ _ _ _ h ↦
    absurd (fails_report_bind.mp h) not_fails_pure

/-- Behind a name, one more is expected after each comma. -/
private theorem completes_nameItems (name : String) :
    Completes (fun x ↦ ∃ ds, DerivesNames ty (.identifier name :: x) ds)
      (many (nameItem ty)) s := by
  intro context expected found s' h
  have hbreaks := breaks_of_fails_many h
  clear h
  induction hbreaks generalizing name with
  | @here s item hitem hfails =>
    obtain ⟨hcomma, rfl⟩ := eq_of_nameItem_eq_some hitem
    refine completes_advance_bind ((Token.kind_eq hcomma).trans_ne (by simp)) ?_ _ _ _ _ hfails
    rw [hcomma]
    exact completes_declaredName fun name' ↦ ⟨_, .cons name (.last name')⟩
  | @step s s₁ item d hitem hd _ ih =>
    obtain ⟨hcomma, hyields⟩ := yields_nameItem hitem
    obtain ⟨t, hkind, hread, rfl⟩ := yields_declaredName.mp (hyields.mp hd)
    have hne : s.current.kind ≠ .endOfInput := (Token.kind_eq hcomma).trans_ne (by simp)
    rw [Stream.eq_prepend_cons hne hread]
    refine (ih t.text).frame [s.current, t] ?_
    rintro x ⟨ds, hds⟩
    refine viable_of ⟨⟨ty, ⟨name⟩⟩ :: ds, ?_⟩
    simpa [hcomma, terminal_eq_of_kind hkind] using DerivesNames.cons name hds

private theorem completes_declaredNames (hs : s.Scanned) :
    Completes (IsNames ty) (declaredNames ty) s := by
  have hsemi : ∀ t ∈ [Terminal.separator ";"], t.Valid :=
    valid_singleton (Terminal.valid_separator (by decide))
  have hname : Completes (fun y ↦ ∃ name, y = [.identifier name]) (declaredName ty) s :=
    completes_declaredName fun name ↦ ⟨name, rfl⟩
  refine completes_bind hname ?_ fun d s₁ hd ↦ ?_
  · rintro _ ⟨name, rfl⟩
    exact viable_of_append hsemi ⟨_, _, .last name, rfl⟩
  · obtain ⟨t, hkind, rfl, rfl⟩ := yields_declaredName.mp hd
    refine ⟨[t], rfl, ?_⟩
    rw [List.map_singleton, terminal_eq_of_kind hkind]
    refine completes_bind (completes_nameItems t.text) ?_ fun others s₂ hothers ↦ ?_
    · rintro y ⟨ds, hds⟩
      exact viable_of_append hsemi ⟨_, _, hds, rfl⟩
    · have hrepeats := (yields_many progressive_nameItem).mp hothers
      obtain ⟨w, rfl, hw⟩ := derivesNames_of_repeats hrepeats t.text
      have hnames : IsNames ty ([.identifier t.text] ++ (w.map Token.terminal ++
          [.separator ";"])) := ⟨_, _, hw, rfl⟩
      exact ⟨w, rfl, completes_expectSeparator_bind (by decide) (viable_of hnames)
        (completes_pure _)⟩

private theorem completes_declarations (hs : s.Scanned) :
    Completes IsDeclarations declarations s := by
  refine completes_bind_pure fun context expected found s' h ↦ ?_
  have hbreaks : Breaks typeItem _ s' s := breaks_of_fails_many h
  clear h
  induction hbreaks with
  | @here s item hitem hfails =>
    obtain ⟨ty, hty, rfl⟩ := Option.map_eq_some_iff.mp hitem
    have hterminal := typeOf?_eq_some_iff.mp hty
    refine completes_advance_bind ((Token.kind_eq hterminal).trans_ne (by simp)) ?_ _ _ _ _ hfails
    rw [hterminal]
    refine (completes_declaredNames hs.advance).mono ?_
    rintro _ ⟨u, ds, hu, rfl⟩
    exact ⟨_, .cons hu .nil⟩
  | step hitem hds _ ih =>
    obtain ⟨u, rfl, hu⟩ := derives_of_yields_typeItem hitem hds
    refine (ih hs.of_prepend).frame u ?_
    rintro x ⟨ds, hx⟩
    exact viable_of ⟨_, hu _ _ hx⟩

end

/-! ## Programs -/

/-- Whether terminals are a program. -/
def IsProgram (w : List Terminal) : Prop := ∃ p n, DerivesProgram w p n

/-- Whatever is unexpected in a text, it is met behind the beginning of a program that can go on
with anything that was expected. -/
theorem completes_program (limit : Nat) (hs : s.Scanned) :
    Completes IsProgram (program limit) s := by
  have hend : (Terminal.endOfInput).Valid := .inl rfl
  have hclose : ∀ t ∈ [Terminal.separator "\x7d", .endOfInput], t.Valid :=
    valid_cons (Terminal.valid_separator (by decide)) (valid_singleton hend)
  have hopen : (Terminal.separator "\x7b").Valid := Terminal.valid_separator (by decide)
  have hempty : IsProgram [.keyword "main", .separator "\x7b", .separator "\x7d", .endOfInput] :=
    ⟨_, _, .intro .nil .nil⟩
  refine fun context expected found s' h ↦ ?_
  rw [program, programFrom, fails_report_bind] at h
  revert context expected found s'
  refine completes_expectLexeme_bind (by decide) (Terminal.valid_keyword (by decide))
    (viable_of_append (valid_cons hopen hclose) hempty) ?_
  refine completes_expectSeparator_bind (by decide) (viable_of_append hclose hempty) ?_
  have hs₂ := hs.advance.advance
  refine completes_bind (completes_declarations hs₂) ?_ fun ds s₃ hds ↦ ?_
  · rintro y ⟨ds, hy⟩
    exact viable_of_append hclose ⟨_, _, .intro hy .nil⟩
  obtain ⟨groups, hgroups, rfl⟩ := yields_declarations.mp hds
  obtain ⟨u, hu, hderives⟩ := derivesDeclarations_of_repeats hgroups
  have hs₃ : s₃.Scanned := (hu ▸ hs₂).of_prepend
  refine ⟨u, hu, ?_⟩
  refine completes_bind (completes_statements (completeStatement_statement 0 limit) hs₃) ?_
    fun ms s₄ hms ↦ ?_
  · rintro y ⟨ms, n, hy⟩
    exact viable_of_append hclose ⟨_, _, by simpa using .intro hderives hy⟩
  obtain ⟨w, n, rfl, hw, -⟩ := derives_of_repeats_members (readsStatement_statement 0 limit)
    ((yields_many (progressive_memberItem 0 limit)).mp hms) hs₃
  have hprogram : IsProgram (.keyword "main" :: .separator "\x7b" :: (u.map Token.terminal ++
      (w.map Token.terminal ++ [.separator "\x7d", .endOfInput]))) := ⟨_, _, .intro hderives hw⟩
  refine ⟨w, rfl, completes_expectSeparator_bind (by decide)
    (viable_of_append (valid_singleton hend) hprogram) ?_⟩
  -- Nothing can fail behind the end of input.
  refine completes_bind_of_not_fails (completes_expect (Alternative.starts_kind hend ?_))
    fun _ _ _ _ h ↦ absurd (fails_report_bind.mp h) not_fails_pure
  rintro text (heq | ⟨hadmissible, -⟩)
  · rw [heq]
    exact viable_of hprogram
  · exact absurd rfl hadmissible.ne_endOfInput

end Kay.Rule
