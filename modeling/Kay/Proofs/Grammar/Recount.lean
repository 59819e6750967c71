import Kay.Proofs.Grammar.Alike

/-!
# What runs report

Scanner and parser report into one account. `Recounts` follows it through a stream: every token that
is read is one of the text and is followed by the scan of the next one, and a statement is reported
directly behind the scan of its first token.

Whether that scan was the last thing reported is a flag in front of an account and behind it. A
rule that reads raises it, a rule that reports lowers it, and a repetition needs it to be the same
in front of each round and behind. What a rule may report besides is a parameter: expressions keep
every such account, hence report nothing at all.
-/

namespace Kay

open Grammar

/-- Whether an event is one of the scanner. -/
def Event.isScan (e : Event) : Bool := e.target = "kay_lexer::scanner"

/-- Whether an event is one of the parser. -/
def Event.isReport (e : Event) : Bool := e.target = "kay_parser::parser"

private theorem Event.isScan_iff {e : Event} : e.isScan = true ↔ ∃ t, e = .scanned t := by
  rw [isScan, decide_eq_true_eq]
  cases e <;> simp [target]

/-! ## Accounts with their reports -/

/-- `Recounts A x s log y s'`: the account `log` leads from `s` to `s'`, in front of the end of
input; all that it reports, scans apart, is in `A`. The scan of the current token is the last thing
reported in front of it if `x`, and behind it if `y`. -/
inductive Recounts (A : Event → Prop) : Bool → Stream → List Mark → Bool → Stream → Prop
  | nil {x y : Bool} {s : Stream} (h : y = true → x = true) : Recounts A x s [] y s
  | read {x y : Bool} {s s' : Stream} {log : List Mark} (hs : s.current.kind ≠ .endOfInput)
      (h : Recounts A true s.advance log y s') :
      Recounts A x s (.read s.current :: .event (.scanned s.advance.current) :: log) y s'
  | report {x y : Bool} {s s' : Stream} {log : List Mark} {e : Event} (he : A e)
      (hstart : ∀ t d, e = .statementStarted t d → x = true ∧ t = s.current)
      (h : Recounts A false s log y s') : Recounts A x s (.event e :: log) y s'
  | opened {x y : Bool} {s s' : Stream} {log : List Mark} (d : Nat) (t : Token)
      (h : Recounts A x s log y s') : Recounts A x s (.opened d t :: log) y s'
  | closed {x y : Bool} {s s' : Stream} {log : List Mark} (h : Recounts A x s log y s') :
      Recounts A x s (.closed :: log) y s'

namespace Recounts

variable {A : Event → Prop} {x y z : Bool} {s s' s'' : Stream} {log log' : List Mark}

/-- A flag that is raised need not be made use of. -/
theorem mono (h : Recounts A x s log y s') (hx : x = true → z = true) :
    Recounts A z s log y s' := by
  induction h generalizing z with
  | nil h => exact .nil fun hy ↦ hx (h hy)
  | read hs h => exact .read hs h
  | report he hstart h => exact .report he (fun t d ht ↦ (hstart t d ht).imp_left hx) h
  | opened d t _ ih => exact .opened d t (ih hx)
  | closed _ ih => exact .closed (ih hx)

theorem append (h : Recounts A x s log y s') (h' : Recounts A y s' log' z s'') :
    Recounts A x s (log ++ log') z s'' := by
  induction h with
  | nil h => exact h'.mono h
  | read hs _ ih => exact .read hs (ih h')
  | report he hstart _ ih => exact .report he hstart (ih h')
  | opened d t _ ih => exact .opened d t (ih h')
  | closed _ ih => exact .closed (ih h')

/-- The tokens that were read stood in front of those that are left. -/
theorem prepend_reads (h : Recounts A x s log y s') :
    s = s'.prepend (log.filterMap Mark.read?) := by
  induction h with
  | nil => rfl
  | read hs _ ih => exact Stream.eq_prepend_cons hs ih
  | report _ _ _ ih => exact ih
  | opened _ _ _ ih => exact ih
  | closed _ ih => exact ih

/-- The end of input is not read. -/
theorem kind_ne (h : Recounts A x s log y s') :
    ∀ t ∈ log.filterMap Mark.read?, t.kind ≠ .endOfInput := by
  induction h with
  | nil => simp
  | read hs _ ih => exact List.forall_mem_cons.mpr ⟨hs, ih⟩
  | report _ _ _ ih => exact ih
  | opened _ _ _ ih => exact ih
  | closed _ ih => exact ih

/-- Only what is read raises the flag. -/
theorem reads_ne_nil (h : Recounts A x s log y s') (hx : x = false) (hy : y = true) :
    log.filterMap Mark.read? ≠ [] := by
  induction h with
  | nil h => exact absurd (h hy) (by simp [hx])
  | read => exact List.cons_ne_nil _ _
  | report _ _ _ ih => exact ih rfl hy
  | opened _ _ _ ih => exact ih hx hy
  | closed _ ih => exact ih hx hy

/-- The tokens in front of the one that is left, and that one, are scanned in order. -/
theorem scans_eq (h : Recounts A x s log y s') (hA : ∀ t, ¬ A (.scanned t)) :
    .scanned s.current :: (log.filterMap Mark.event?).filter Event.isScan =
      (log.filterMap Mark.read? ++ [s'.current]).map .scanned := by
  induction h with
  | nil => rfl
  | read hs _ ih => exact congrArg (Event.scanned _ :: ·) ih
  | @report x y s s' log e he _ _ ih =>
    have hscan : ¬ e.isScan = true := fun h ↦ by
      obtain ⟨t, rfl⟩ := Event.isScan_iff.mp h
      exact hA t he
    have hlog : ((Mark.event e :: log).filterMap Mark.event?).filter Event.isScan =
        (log.filterMap Mark.event?).filter Event.isScan := List.filter_cons_of_neg hscan
    rw [hlog]
    exact ih
  | opened _ _ _ ih => exact ih
  | closed _ ih => exact ih

theorem scanned_or_of_mem (h : Recounts A x s log y s') :
    ∀ e ∈ log.filterMap Mark.event?, (∃ t, e = .scanned t) ∨ A e := by
  induction h with
  | nil => simp
  | read _ _ ih => exact List.forall_mem_cons.mpr ⟨.inl ⟨_, rfl⟩, ih⟩
  | report he _ _ ih => exact List.forall_mem_cons.mpr ⟨.inr he, ih⟩
  | opened _ _ _ ih => exact ih
  | closed _ ih => exact ih

/-- In front of the report of a statement stands the scan of its first token. -/
theorem heralded (h : Recounts A x s log y s') {t : Token} {d : Nat} {before after : List Event}
    (heq : log.filterMap Mark.event? = before ++ .statementStarted t d :: after) :
    (before = [] ∧ x = true ∧ t = s.current) ∨ before.getLast? = some (.scanned t) := by
  induction h generalizing before with
  | nil => exact absurd heq (by simp)
  | read hs _ ih =>
    cases before with
    | nil => exact absurd (List.cons.inj heq).1 (by simp)
    | cons e before =>
      obtain ⟨rfl, htail⟩ := List.cons.inj heq
      rcases ih htail with ⟨rfl, -, rfl⟩ | hlast
      · exact .inr rfl
      · exact .inr (by rw [List.getLast?_cons, hlast]; rfl)
  | report _ hstart _ ih =>
    cases before with
    | nil => exact .inl ⟨rfl, hstart _ _ (List.cons.inj heq).1⟩
    | cons e before =>
      rcases ih (List.cons.inj heq).2 with ⟨-, hx, -⟩ | hlast
      · exact absurd hx (by simp)
      · exact .inr (by rw [List.getLast?_cons, hlast]; rfl)
  | opened _ _ _ ih => exact ih heq
  | closed _ ih => exact ih heq

end Recounts

namespace Rule

variable {α β : Type} {A : Event → Prop} {x y z : Bool} {s : Stream}

/-! ## Rules -/

/-- Whether the account of a run is as it should be. The flag behind it counts where the run comes
to a value. -/
def Tells (A : Event → Prop) (x : Bool) (s : Stream) (o : Outcome α) (y : Bool) : Prop :=
  Recounts A x s o.log (o.result.isOk && y) o.rest

theorem tells_pure (a : α) : Tells A x s ((pure a : Rule α) s) x := .nil id

private theorem tells_fail (e : SyntaxError) : Tells A x s ((fail e : Rule α) s) y := .nil nofun

private theorem tells_unexpected (context : Context) (expected : Expectation) :
    Tells A x s ((unexpected context expected : Rule α) s) y :=
  tells_fail _

private theorem tells_tooDeep (limit : Nat) : Tells A x s ((tooDeep limit : Rule α) s) y :=
  tells_fail _

theorem tells_bind {p : Rule α} {f : α → Rule β} (hp : Tells A x s (p s) y)
    (hf : ∀ a s', Tells A y s' (f a s') z) : Tells A x s ((p >>= f) s) z := by
  rcases h : p s with ⟨e | a, rest, log⟩
  · rw [bind_apply_error h]
    rw [h] at hp
    exact hp
  · rw [bind_apply_ok h]
    rw [h] at hp
    exact hp.append (hf a rest)

private theorem tells_map {f : α → β} {p : Rule α} (hp : Tells A x s (p s) y) :
    Tells A x s ((f <$> p) s) y := by
  rw [← bind_pure_comp]
  exact tells_bind hp fun _ _ ↦ tells_pure _

private theorem tells_advance (hs : s.current.kind ≠ .endOfInput) :
    Tells A x s (advance s) true := by
  have hlog : (advance s).log = [.read s.current, .event (.scanned s.advance.current)] := by
    obtain ⟨tokens, stop⟩ := s
    cases tokens with
    | nil => exact absurd rfl hs
    | cons t ts => rfl
  rw [Tells, hlog]
  exact .read hs (.nil id)

private theorem tells_report {e : Event} (he : A e)
    (hstart : ∀ t d, e = .statementStarted t d → x = true ∧ t = s.current) :
    Tells A x s (report e s) false :=
  .report he hstart (.nil id)

private theorem tells_nested {p : Rule α} {d : Nat} (hp : Tells A x s (p s) y) :
    Tells A x s (nested d p s) y :=
  .opened d _ (hp.append (.closed (.nil id)))

private theorem tells_expect {a : Alternative} {context : Context}
    (ha : ∀ t, a.admits t = true → t.kind ≠ .endOfInput) :
    Tells A x s (expect a context s) true := by
  rw [expect, current_bind_apply]
  split
  · next h => exact tells_advance (ha _ h)
  · exact tells_unexpected context _

theorem tells_expectLexeme {kind : TokenKind} {text : String} {context : Context}
    (hkind : kind ≠ .endOfInput) : Tells A x s (expect (.lexeme kind text) context s) true :=
  tells_expect (kind_ne_of_admits_lexeme hkind)

theorem tells_expectSeparator {text : String} {context : Context} :
    Tells A x s (expectSeparator text context s) true :=
  tells_expectLexeme (by decide)

theorem tells_expectIdentifier {context : Context} :
    Tells A x s (expect (.kind .identifier) context s) true :=
  tells_expect fun _ h ↦ (of_decide_eq_true h).trans_ne (by decide)

/-- A repetition keeps the flag that each of its rounds keeps. -/
private theorem tells_many {next : Token → Option (Rule α)}
    (h : ∀ p s, next s.current = some p → Tells A x s (p s) x) (s : Stream) :
    Tells A x s (many next s) x := by
  have hrounds : ∀ (fuel : List Token) (s : Stream), Tells A x s (rounds next fuel s) x := by
    intro fuel
    induction fuel with
    | nil => exact fun s ↦ tells_pure []
    | cons t fuel ih =>
      intro s
      cases hp : next s.current with
      | none =>
        rw [rounds_of_none hp]
        exact tells_pure []
      | some p =>
        rw [rounds_cons_of_some hp]
        exact tells_bind (h p s hp) fun a s' ↦ tells_map (ih s')
  exact hrounds s.tokens s

/-! ## Expressions -/

section

variable {p g : Rule Expression} {ops : List String}

private theorem tells_operator (h : s.current.isOperatorIn ops = true) :
    Tells A x s (operator s) true :=
  tells_bind (tells_advance (kind_ne_of_isOperatorIn h)) fun _ _ ↦ tells_pure _

/-- Whether a rule for expressions keeps every account, whatever may be reported. It reads a token
at least. -/
def Quiet (p : Rule Expression) : Prop :=
  ∀ (A : Event → Prop) (x : Bool) (s : Stream), Tells A x s (p s) true

private theorem quiet_leftAssociative (hp : Quiet p) : Quiet (leftAssociative ops p) := by
  intro A x s
  refine tells_bind (tells_bind (hp A x s) fun _ s' ↦ tells_bind
    (tells_many (fun item s hitem ↦ ?_) s') fun _ _ ↦ tells_pure _) fun _ _ ↦ tells_pure _
  obtain ⟨ht, rfl⟩ := eq_of_operandItem_eq_some hitem
  exact tells_bind (tells_operator ht) fun _ _ ↦ tells_bind (hp A _ _) fun _ _ ↦ tells_pure _

private theorem quiet_nonAssociative (hp : Quiet p) : Quiet (nonAssociative ops p) := by
  refine fun A x s ↦ tells_bind (hp A x s) fun _ s' ↦ ?_
  rw [current_bind_apply]
  split
  · next h =>
    exact tells_bind (tells_operator h) fun _ _ ↦ tells_bind (hp A _ _) fun _ _ ↦ tells_pure _
  · exact tells_pure _

/-- Whether a rule for a parenthesised factor is quiet in front of one. -/
def QuietGroup (g : Rule Expression) : Prop :=
  ∀ (A : Event → Prop) (x : Bool) (s : Stream), s.current.terminal = .separator "(" →
    Tells A x s (g s) true

private theorem quiet_factor (hg : QuietGroup g) : Quiet (factor g) := by
  intro A x s
  have hread : ∀ {k : TokenKind}, s.current.kind = k → k ≠ .endOfInput →
      Tells A x s (advance s) true := fun hk hne ↦ tells_advance (hk.trans_ne hne)
  rw [factor, current_bind_apply]
  split
  · next h => exact tells_bind (hread h (by decide)) fun _ _ ↦ tells_pure _
  · split
    · next h =>
      refine tells_bind (hread h (by decide)) fun _ s' ↦ ?_
      cases literalValue? s.current.text with
      | some n => exact tells_pure _
      | none => exact tells_fail _
    · split
      · next h =>
        exact tells_bind (hread (Token.kind_eq (Token.is_iff.mp h)) (by decide))
          fun _ _ ↦ tells_pure _
      · split
        · next h =>
          exact tells_bind (hread (Token.kind_eq (Token.is_iff.mp h)) (by decide))
            fun _ _ ↦ tells_pure _
        · split
          · next h => exact hg A x s (Token.is_iff.mp h)
          · exact tells_unexpected _ _

private theorem quiet_negation (hg : QuietGroup g) : Quiet (negation g) := by
  intro A x s
  rw [negation, current_bind_apply]
  split
  · next h =>
    exact tells_bind (tells_operator h) fun _ _ ↦ tells_bind (quiet_factor hg A _ _)
      fun _ _ ↦ tells_pure _
  · exact quiet_factor hg A x s

theorem quiet_level (hg : QuietGroup g) (l : Level) : Quiet (level l g) := by
  have hnegation : Quiet (negation g) := quiet_negation hg
  have hterm : Quiet (term g) := quiet_leftAssociative hnegation
  have haddition : Quiet (addition g) := quiet_leftAssociative hterm
  have hrelation : Quiet (relation g) := quiet_nonAssociative haddition
  have hconjunction : Quiet (conjunction g) := quiet_leftAssociative hrelation
  cases l with
  | disjunction => exact quiet_leftAssociative hconjunction
  | conjunction => exact hconjunction
  | relation => exact hrelation
  | addition => exact haddition
  | term => exact hterm
  | negation => exact hnegation
  | factor => exact quiet_factor hg

theorem quietGroup_group (depth room : Nat) : QuietGroup (group depth room) := by
  induction room generalizing depth with
  | zero => exact fun _ _ _ _ ↦ tells_tooDeep depth
  | succ room ih =>
    refine fun A x s hopen ↦ tells_nested ?_
    have hexpression : Quiet (expression (depth + 1) room) := by
      rw [expression_eq]
      exact quiet_level (ih (depth + 1)) .disjunction
    exact tells_bind (tells_advance ((Token.kind_eq hopen).trans_ne (by simp))) fun _ _ ↦
      tells_bind (hexpression A _ _) fun _ _ ↦ tells_bind tells_expectSeparator fun _ _ ↦
        tells_pure _

theorem quiet_expression (depth room : Nat) : Quiet (expression depth room) := by
  rw [expression_eq]
  exact quiet_level (quietGroup_group depth room) .disjunction

end

/-! ## Statements -/

section

variable {ex : Rule Expression} {st : Rule Statement}

theorem tells_guarded {word : String} {context : Context} (hex : Quiet ex) :
    Tells A x s (guarded word context ex s) true :=
  tells_bind (tells_expectLexeme (by decide)) fun _ _ ↦ tells_bind tells_expectSeparator fun _ _ ↦
    tells_bind (hex A _ _) fun _ _ ↦ tells_bind tells_expectSeparator fun _ _ ↦ tells_pure _

private theorem tells_statements (hst : ∀ s, Tells A true s (st s) true) :
    Tells A true s (statements st s) true :=
  tells_many (fun _ s hp ↦ (eq_of_memberItem_eq_some hp).symm ▸ hst s) s

/-- Every form of statement reads a token before anything else is reported. -/
private theorem tells_anyStatement (hex : Quiet ex) (hst : ∀ s, Tells A true s (st s) true) :
    Tells A x s (anyStatement ex st s) true := by
  rw [anyStatement, current_bind_apply]
  split
  · next h =>
    exact tells_bind (tells_advance ((Token.kind_eq (Token.is_iff.mp h)).trans_ne (by decide)))
      fun _ _ ↦ tells_pure _
  · split
    · exact tells_bind tells_expectSeparator fun _ _ ↦ tells_bind (tells_statements hst) fun _ _ ↦
        tells_bind tells_expectSeparator fun _ _ ↦ tells_pure _
    · split
      · refine tells_bind (tells_guarded hex) fun _ s₁ ↦ tells_bind (hst s₁) fun _ s₂ ↦ ?_
        rw [current_bind_apply]
        split
        · next h =>
          have hread := tells_advance (A := A) (x := true)
            ((Token.kind_eq (Token.is_iff.mp h)).trans_ne (by decide))
          exact tells_bind hread fun _ s₃ ↦ tells_bind (hst s₃) fun _ _ ↦ tells_pure _
        · exact tells_pure _
      · split
        · exact tells_bind (tells_guarded hex) fun _ s₁ ↦ tells_bind (hst s₁) fun _ _ ↦
            tells_pure _
        · split
          · exact tells_bind tells_expectIdentifier fun _ _ ↦
              tells_bind (tells_expectLexeme (by decide)) fun _ s₁ ↦ tells_bind (hex A _ s₁)
                fun _ _ ↦ tells_bind tells_expectSeparator fun _ _ ↦ tells_pure _
          · exact tells_unexpected _ _

end

/-- What the parser reports in front of the end of input. -/
def IsProgress : Event → Prop
  | .programStarted | .declared _ _ | .statementStarted _ _ => True
  | .scanned _ | .programParsed _ _ | .awaitingBrace _ | .sessionEnded => False

theorem tells_statement (depth room : Nat) (s : Stream) :
    Tells IsProgress true s (statement depth room s) true := by
  induction room generalizing depth s with
  | zero => exact tells_tooDeep depth
  | succ room ih =>
    refine tells_nested ?_
    rw [current_bind_apply]
    have hstart : ∀ t d, Event.statementStarted s.current (depth + 1) = .statementStarted t d →
        true = true ∧ t = s.current := fun t d h ↦ ⟨rfl, (Event.statementStarted.inj h).1.symm⟩
    exact tells_bind (tells_report trivial hstart) fun _ s' ↦
      tells_anyStatement (quiet_expression _ _) (ih (depth + 1))

/-! ## Programs -/

section

variable {ty : VarType}

private theorem tells_declaredName : Tells IsProgress x s (declaredName ty s) false :=
  tells_bind tells_expectIdentifier fun _ _ ↦ tells_bind (tells_report trivial nofun) fun _ _ ↦
    tells_pure _

private theorem tells_declaredNames : Tells IsProgress x s (declaredNames ty s) true := by
  refine tells_bind tells_declaredName fun _ s' ↦ tells_bind (tells_many (fun p s hp ↦ ?_) s')
    fun _ _ ↦ tells_bind tells_expectSeparator fun _ _ ↦ tells_pure _
  obtain ⟨hcomma, rfl⟩ := eq_of_nameItem_eq_some hp
  exact tells_bind (tells_advance ((Token.kind_eq hcomma).trans_ne (by decide))) fun _ _ ↦
    tells_declaredName

private theorem tells_declarations : Tells IsProgress true s (declarations s) true := by
  refine tells_bind (tells_many (fun p s hp ↦ ?_) s) fun _ _ ↦ tells_pure _
  obtain ⟨ty, hty, rfl⟩ := Option.map_eq_some_iff.mp hp
  exact tells_bind (tells_advance ((Token.kind_eq (typeOf?_eq_some_iff.mp hty)).trans_ne (by simp)))
    fun _ _ ↦ tells_declaredNames

end

/-- A program in front of the end of input. -/
def programBody (depth room : Nat) : Rule Program := do
  report .programStarted
  let _ ← expect (.lexeme .keyword "main") .program
  let _ ← expectSeparator "\x7b" .program
  let declarations ← declarations
  let members ← statements (statement depth room)
  let _ ← expectSeparator "\x7d" .program
  pure ⟨declarations, ⟨members⟩⟩

/-- The end of input behind a program. -/
def programEnd (p : Program) : Rule Program := do
  let _ ← expect (.kind .endOfInput) .program
  report (.programParsed p.declarations.length p.body.members.length)
  pure p

theorem programFrom_eq (depth room : Nat) :
    programFrom depth room = programBody depth room >>= programEnd := by
  simp only [programFrom, programBody, bind_assoc, pure_bind]
  rfl

theorem tells_programBody (depth room : Nat) (s : Stream) :
    Tells IsProgress true s (programBody depth room s) true :=
  tells_bind (tells_report trivial nofun) fun _ _ ↦ tells_bind (tells_expectLexeme (by decide))
    fun _ _ ↦ tells_bind tells_expectSeparator fun _ _ ↦ tells_bind tells_declarations fun _ _ ↦
      tells_bind (tells_statements (tells_statement depth room)) fun _ _ ↦
        tells_bind tells_expectSeparator fun _ _ ↦ tells_pure _

end Rule

end Kay
