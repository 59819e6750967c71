import Kay.Proofs.Grammar.Earliest
import Kay.Proofs.Grammar.FirstTokens
import Kay.Proofs.Grammar.Recount

/-!
# The trace of a parse

What the parser reports while it reads a program is the program in the order of its text: the
declared names, then every statement when it begins, in front of the statements in it. With the
scans of the tokens in between, the trace of a parse is an account of the text and of the tree
(`parse_traced`).

A statement is reported with the number of levels that are open, and parentheses open levels too.
The number is the level of the statement in the tree all the same, since no statement stands between
parentheses: the rules for statements hand on one more level each, and so does the tree.

What is shown of an event is its `Record`. The records that a text and a tree call for are listed
with their messages and fields (`Token.scanRecord`, `Program.records`), and those of a parse are
shown to be these.
-/

namespace Kay

open Grammar

/-! ## Events as they are shown -/

/-- What is shown of an event, whatever component it is reported for. -/
structure Record where
  severity : Severity
  message : String
  fields : List (String × FieldValue)
deriving DecidableEq, Repr

def Event.record (e : Event) : Record := ⟨e.severity, e.message, e.fields⟩

/-- What is to be shown of the scan of a token in front of the end of input. -/
def Token.scanRecord (t : Token) : Record :=
  if t.kind = .other then
    ⟨.warn, "unrecognized character", [("text", .quoted t.text), ("start", .number t.span.start)]⟩
  else
    ⟨.trace, "token", [("kind", .quoted t.kind.name), ("text", .quoted t.text),
      ("start", .number t.span.start)]⟩

/-- What is to be shown of a declaration. -/
def Declaration.record (d : Declaration) : Record :=
  ⟨.trace, "declared", [("name", .plain d.declared.name), ("ty", .plain d.ty.name)]⟩

/-- What is to be shown of a statement that begins at the given token, as the given level. -/
def statementRecord (first : Token) (depth : Nat) : Record :=
  ⟨.trace, "statement", [("token", .plain (first.kind.name ++ " " ++ first.text)),
    ("depth", .number depth)]⟩

/-- What is to be shown of the reports of a program, whose statements begin at the given tokens. -/
def Program.records (p : Program) (firsts : List Token) : List Record :=
  ⟨.debug, "parsing program", []⟩ :: (p.declarations.map Declaration.record ++
    (List.zipWith statementRecord firsts (Statement.levelsOf p.body.members 1) ++
      [⟨.debug, "parsed program", [("declarations", .number p.declarations.length),
        ("statements", .number p.body.members.length)]⟩]))

/-- The report of a declaration. -/
def Declaration.report (d : Declaration) : Event := .declared d.declared.name d.ty

/-- The reports of a program, whose statements begin at the given tokens. -/
def Program.reports (p : Program) (firsts : List Token) : List Event :=
  .programStarted :: (p.declarations.map Declaration.report ++
    (List.zipWith .statementStarted firsts (Statement.levelsOf p.body.members 1) ++
      [.programParsed p.declarations.length p.body.members.length]))

private theorem Program.map_record_reports (p : Program) (firsts : List Token) :
    (p.reports firsts).map Event.record = p.records firsts := by
  have hdeclarations : (p.declarations.map Declaration.report).map Event.record =
      p.declarations.map Declaration.record := by
    rw [List.map_map]
    rfl
  have hstatements : ∀ depths : List Nat,
      (List.zipWith Event.statementStarted firsts depths).map Event.record =
        List.zipWith statementRecord firsts depths := by
    intro depths
    rw [List.map_zipWith]
    rfl
  rw [reports, List.map_cons, List.map_append, List.map_append, hdeclarations, hstatements]
  rfl

private theorem Event.record_scanned {t : Token} (h : t.kind ≠ .endOfInput) :
    (scanned t).record = t.scanRecord := by
  obtain ⟨kind, text, span⟩ := t
  cases kind with
  | endOfInput => exact absurd rfl h
  | _ => rfl

private theorem Event.message_scanned_mem (t : Token) :
    (scanned t).message ∈ ["token", "unrecognized character", "end of input"] := by
  obtain ⟨kind, text, span⟩ := t
  cases kind <;> simp [message, TokenKind.description]

private theorem Event.exists_statementStarted {e : Event} (h : e.message = "statement") :
    ∃ t d, e = .statementStarted t d := by
  cases e with
  | statementStarted t d => exact ⟨t, d, rfl⟩
  | scanned t => exact absurd (h ▸ message_scanned_mem t) (by decide)
  | _ => exact absurd h (by simp [message])

private theorem Event.exists_programParsed {e : Event} (h : e.message = "parsed program") :
    ∃ m n, e = .programParsed m n := by
  cases e with
  | programParsed m n => exact ⟨m, n, rfl⟩
  | scanned t => exact absurd (h ▸ message_scanned_mem t) (by decide)
  | _ => exact absurd h (by simp [message])

namespace Rule

variable {α β : Type} {x y : Bool} {s s' s₁ : Stream}

/-! ## What the parser reports -/

/-- What the parser reports in a run. -/
def reports (o : Outcome α) : List Event := o.events.filter Event.isReport

private theorem events_bind {p : Rule α} {f : α → Rule β} {a : α} (h : Yields p s a s₁) :
    ((p >>= f) s).events = (p s).events ++ (f a s₁).events := by
  rw [bind_eq_of_yields h]
  exact List.filterMap_append

private theorem reports_bind {p : Rule α} {f : α → Rule β} {a : α} (h : Yields p s a s₁) :
    reports ((p >>= f) s) = reports (p s) ++ reports (f a s₁) := by
  rw [reports, events_bind h, List.filter_append]
  rfl

private theorem reports_report_bind (e : Event) (f : Unit → Rule β) :
    reports ((report e >>= f) s) = [e].filter Event.isReport ++ reports (f () s) :=
  reports_bind (yields_note.mpr rfl)

private theorem reports_map (f : α → β) (p : Rule α) : reports ((f <$> p) s) = reports (p s) := rfl

private theorem reports_nested {p : Rule α} {d : Nat} : reports (nested d p s) = reports (p s) := by
  rw [reports, Outcome.events, nested, List.filterMap_cons_none rfl, List.filterMap_append,
    List.filterMap_cons_none rfl, List.filterMap_nil, List.append_nil]
  rfl

private theorem reports_advance : reports (advance s) = [] := by
  rw [reports, Outcome.events, advance]
  split <;> rfl

private theorem reports_expect {a : Alternative} {context : Context} :
    reports (expect a context s) = [] := by
  rw [expect, current_bind_apply]
  split
  · exact reports_advance
  · rfl

private theorem reports_expectSeparator {text : String} {context : Context} :
    reports (expectSeparator text context s) = [] :=
  reports_expect

/-- A run that may report nothing reports nothing. -/
private theorem reports_of_tells {o : Outcome α} (h : Tells (fun _ ↦ False) x s o y) :
    reports o = [] := by
  refine List.filter_eq_nil_iff.mpr fun e he ↦ ?_
  obtain ⟨t, rfl⟩ := (h.scanned_or_of_mem e he).resolve_right id
  simp [Event.isReport, Event.target]

/-- What the items of a repetition report stands in their order. -/
private theorem reports_many {next : Token → Option (Rule α)} (hnext : Progressive next)
    {P : Stream → List α → List Event → Prop} (hstop : P s' [] [])
    (hstep : ∀ {s s₁ p a as es}, next s.current = some p → Yields p s a s₁ → P s₁ as es →
      P s (a :: as) (reports (p s) ++ es)) {as : List α} (h : Repeats next s as s') :
    P s as (reports (many next s)) := by
  have hrounds : ∀ {fuel : List Token}, s.tokens.length ≤ fuel.length →
      P s as (reports (rounds next fuel s)) := by
    induction h with
    | @stop s hnone =>
      intro fuel _
      rw [rounds_of_none hnone]
      exact hstop
    | @step s s₁ s' p a as hsome ha _ ih =>
      intro fuel hfuel
      have hlt := hnext.length_lt hsome ha
      cases fuel with
      | nil => exact absurd hfuel (Nat.not_le.mpr (Nat.zero_lt_of_lt hlt))
      | cons t fuel =>
        rw [rounds_cons_of_some hsome, reports_bind ha, reports_map]
        exact hstep hsome ha (ih hstop (Nat.le_of_lt_succ (hlt.trans_le hfuel)))
  exact hrounds (Nat.le_refl _)

/-! ## Statements -/

section

variable {ex : Rule Expression} {st : Rule Statement} {n room : Nat}

/-- Whether a run that reads a statement of level `n` reports that statement and those in it. -/
private def Traces (n : Nat) (s : Stream) (o : Outcome Statement) : Prop :=
  ∀ r, o.result = .ok r → ∃ w ts, s = o.rest.prepend w ∧ Begins w r ts ∧
    (r.endsWithOpenIf = true → o.rest.current.terminal ≠ .keyword "else") ∧
    reports o = List.zipWith .statementStarted ts (r.levels n)

/-- Whether a run that reads a statement of level `n` reports the statements in it. The statement
itself is reported in front of the run. -/
private def TracesInside (n : Nat) (s : Stream) (o : Outcome Statement) : Prop :=
  ∀ r, o.result = .ok r → ∃ w ts, s = o.rest.prepend w ∧ Begins w r (s.current :: ts) ∧
    (r.endsWithOpenIf = true → o.rest.current.terminal ≠ .keyword "else") ∧
    reports o = List.zipWith .statementStarted ts (r.levels n).tail

private theorem reports_guarded {word : String} {context : Context} (hex : Quiet ex) :
    reports (guarded word context ex s) = [] :=
  reports_of_tells (x := true) (y := true) (tells_guarded hex)

/-- The test of a composite statement, with the first token of the statement. -/
private theorem guards_of_yields {word : String} {context : Context} {b : Expression}
    (hex : ReadsDerived .disjunction room ex) (hs : s.Scanned)
    (h : Yields (guarded word context ex) s b s₁) :
    ∃ w, s = s₁.prepend (s.current :: w) ∧ Guards word (s.current :: w) b := by
  obtain ⟨w, u, n, rfl, hw, hu, -⟩ := derives_of_yields_guarded hex hs h
  obtain ⟨k, w, rfl, -, -⟩ := List.map_eq_cons_iff.mp hw
  exact ⟨w, rfl, u, n, hw, hu⟩

private theorem tracesInside_skip (h : s.current.terminal = .separator ";") :
    TracesInside n s ((advance >>= fun _ ↦ pure .skip : Rule Statement) s) := by
  intro r hr
  have hyields : Yields (advance >>= fun _ ↦ (pure .skip : Rule Statement)) s r _ := ⟨hr, rfl⟩
  rw [yields_advance_bind, yields_pure] at hyields
  obtain ⟨rfl, hrest⟩ := hyields
  have hne : s.current.kind ≠ .endOfInput := (Token.kind_eq h).trans_ne (by simp)
  refine ⟨[s.current], [], hrest ▸ Stream.eq_prepend_advance hne, .skip h,
    fun hopen ↦ absurd hopen Bool.false_ne_true, ?_⟩
  rw [reports_bind (yields_advance.mpr ⟨rfl, rfl⟩), reports_advance]
  rfl

private theorem tracesInside_assignment (hex : ReadsDerived .disjunction room ex)
    (hquiet : Quiet ex) (hs : s.Scanned) : TracesInside n s (assignment ex s) := by
  intro r hr
  have hreports : reports (assignment ex s) = [] := reports_of_tells (x := true) (y := true)
    (tells_bind tells_expectIdentifier fun _ _ ↦ tells_bind (tells_expectLexeme (by decide))
      fun _ _ ↦ tells_bind (hquiet _ _ _) fun _ _ ↦ tells_bind tells_expectSeparator
        fun _ _ ↦ tells_pure _)
  obtain ⟨x, a, c, s₁, e, hx, ha, hc, hread, he, rfl⟩ := yields_assignment.mp ⟨hr, rfl⟩
  rw [hread] at hs
  obtain ⟨w, k, hw, hderives, -⟩ := hex hs.of_prepend he
  refine ⟨[x, a] ++ (w ++ [c]), [], ?_, ?_, fun hopen ↦ absurd hopen Bool.false_ne_true,
    hreports⟩
  · conv_lhs => rw [hread, hw]
    rw [Stream.prepend_append, Stream.prepend_append]
  · rw [hread]
    exact .assignment (terminal_eq_of_kind hx) ha hderives hc

private theorem tracesInside_loop (hex : ReadsDerived .disjunction room ex) (hquiet : Quiet ex)
    (hst : ∀ s, s.Scanned → Traces (n + 1) s (st s)) (hs : s.Scanned) :
    TracesInside n s (loop ex st s) := by
  intro r hr
  obtain ⟨b, s₁, t, hb, ht, rfl⟩ := yields_loop.mp ⟨hr, rfl⟩
  have hreports : reports (loop ex st s) = reports (st s₁) := by
    rw [loop, reports_bind hb, reports_guarded hquiet, reports_bind ht, List.nil_append]
    exact List.append_nil _
  obtain ⟨w, hw, hguards⟩ := guards_of_yields hex hs hb
  obtain ⟨u, ts, hu, hbegins, hopen, htrace⟩ := hst s₁ (hw ▸ hs).of_prepend t ht.1
  rw [ht.2] at hu hopen
  refine ⟨s.current :: (w ++ u), ts, ?_, .loop hguards hbegins, hopen, hreports.trans htrace⟩
  conv_lhs => rw [hw, hu]
  rw [← List.cons_append, Stream.prepend_append]

private theorem tracesInside_conditional (hex : ReadsDerived .disjunction room ex)
    (hquiet : Quiet ex) (hst : ∀ s, s.Scanned → Traces (n + 1) s (st s)) (hs : s.Scanned) :
    TracesInside n s (conditional ex st s) := by
  intro r hr
  obtain ⟨b, s₁, t, s₂, hb, ht, hrest⟩ := yields_conditional.mp ⟨hr, rfl⟩
  obtain ⟨w, hw, hguards⟩ := guards_of_yields hex hs hb
  have hs₁ : s₁.Scanned := (hw ▸ hs).of_prepend
  obtain ⟨u, ts, hu, hbegins, hopen, htrace⟩ := hst s₁ hs₁ t ht.1
  rw [ht.2] at hu hopen
  split at hrest
  · next helse =>
    obtain ⟨f, hf, rfl⟩ := hrest
    have hreports : reports (conditional ex st s) = reports (st s₁) ++ reports (st s₂.advance) := by
      have hkeyword : s₂.current.isKeyword "else" = true := Token.is_iff.mpr helse
      rw [conditional, reports_bind hb, reports_guarded hquiet, reports_bind ht,
        current_bind_apply, if_pos hkeyword, reports_bind (yields_advance.mpr ⟨rfl, rfl⟩),
        reports_advance, reports_bind hf, List.nil_append, List.nil_append]
      exact congrArg _ (List.append_nil _)
    have hs₂ : s₂.Scanned := (hu ▸ hs₁).of_prepend
    obtain ⟨v, us, hv, hbegins', hopen', htrace'⟩ := hst _ hs₂.advance f hf.1
    rw [hf.2] at hv hopen'
    -- An open `if` in the first branch would have read this `else`.
    have hclosed : t.endsWithOpenIf = false := by
      rw [← Bool.not_eq_true]
      exact fun h ↦ hopen h helse
    have hne : s₂.current.kind ≠ .endOfInput := (Token.kind_eq helse).trans_ne (by simp)
    refine ⟨s.current :: (w ++ (u ++ s₂.current :: v)), ts ++ us, ?_,
      .ifThenElse hguards hbegins hclosed helse hbegins', hopen', ?_⟩
    · conv_lhs => rw [hw, hu, Stream.eq_prepend_cons hne hv]
      rw [← List.cons_append, Stream.prepend_append, Stream.prepend_append]
    · rw [hreports, htrace, htrace', Statement.levels, List.tail_cons,
        List.zipWith_append (hbegins.length_eq (n + 1))]
  · next helse =>
    obtain ⟨rfl, hend⟩ := hrest
    have hreports : reports (conditional ex st s) = reports (st s₁) := by
      have hkeyword : ¬ s₂.current.isKeyword "else" = true := mt Token.is_iff.mp helse
      rw [conditional, reports_bind hb, reports_guarded hquiet, reports_bind ht,
        current_bind_apply, if_neg hkeyword, List.nil_append]
      exact List.append_nil _
    rw [hend]
    refine ⟨s.current :: (w ++ u), ts, ?_, .ifThen hguards hbegins, fun _ ↦ helse,
      hreports.trans htrace⟩
    conv_lhs => rw [hw, hu]
    rw [← List.cons_append, Stream.prepend_append]

/-- Statements in sequence are reported one behind the other. -/
private theorem traces_members (hprogress : Progressive (memberItem st))
    (hst : ∀ s, s.Scanned → Traces n s (st s)) {ms : List Statement}
    (h : Repeats (memberItem st) s ms s') (hs : s.Scanned) : ∃ w ts, s = s'.prepend w ∧
      BeginAll w ms ts ∧
      reports (statements st s) = List.zipWith .statementStarted ts (Statement.levelsOf ms n) := by
  refine reports_many hprogress (P := fun s ms es ↦ s.Scanned → ∃ w ts, s = s'.prepend w ∧
    BeginAll w ms ts ∧ es = List.zipWith .statementStarted ts (Statement.levelsOf ms n))
    (fun _ ↦ ⟨[], [], rfl, .nil, rfl⟩) ?_ h hs
  intro s s₁ p r ms es hitem hr hmembers hs
  obtain rfl := eq_of_memberItem_eq_some hitem
  obtain ⟨u, ts, hu, hbegins, -, htrace⟩ := hst s hs r hr.1
  rw [hr.2] at hu
  obtain ⟨w, us, rfl, hall, rfl⟩ := hmembers (hu ▸ hs).of_prepend
  refine ⟨u ++ w, ts ++ us, hu.trans (Stream.prepend_append ..).symm, .cons hbegins hall, ?_⟩
  rw [htrace, Statement.levelsOf, List.zipWith_append (hbegins.length_eq n)]

private theorem tracesInside_block (hprogress : Progressive (memberItem st))
    (hst : ∀ s, s.Scanned → Traces (n + 1) s (st s)) (hs : s.Scanned) :
    TracesInside n s (block st s) := by
  intro r hr
  obtain ⟨o, c, s₁, ms, ho, hc, hread, hms, rfl⟩ := (yields_block hprogress).mp ⟨hr, rfl⟩
  obtain ⟨w, ts, hw, hall, htrace⟩ := traces_members hprogress hst hms (hread ▸ hs).of_prepend
  have hreports : reports (block st s) = reports (statements st s₁) := by
    have hmembers : Yields (statements st) s₁ ms _ := (yields_many hprogress).mpr hms
    rw [block, reports_bind (yields_expectSeparator.mpr ⟨ho, hread⟩), reports_expectSeparator,
      List.nil_append, reports_bind hmembers,
      reports_bind (yields_expectSeparator.mpr ⟨hc, rfl⟩), reports_expectSeparator]
    exact List.append_nil _
  refine ⟨o :: (w ++ [c]), ts, ?_, ?_, fun hopen ↦ absurd hopen Bool.false_ne_true,
    hreports.trans htrace⟩
  · conv_lhs => rw [hread, hw]
    rw [← Stream.prepend_append, ← Stream.prepend_append]
    rfl
  · rw [hread]
    exact .block ho hall hc

private theorem tracesInside_anyStatement (hex : ReadsDerived .disjunction room ex)
    (hquiet : Quiet ex) (hprogress : Progressive (memberItem st))
    (hst : ∀ s, s.Scanned → Traces (n + 1) s (st s)) (hs : s.Scanned) :
    TracesInside n s (anyStatement ex st s) := by
  rw [anyStatement, current_bind_apply]
  split
  · next h => exact tracesInside_skip (Token.is_iff.mp h)
  · split
    · exact tracesInside_block hprogress hst hs
    · split
      · exact tracesInside_conditional hex hquiet hst hs
      · split
        · exact tracesInside_loop hex hquiet hst hs
        · split
          · exact tracesInside_assignment hex hquiet hs
          · exact fun r hr ↦ absurd ⟨hr, rfl⟩ not_yields_unexpected

/-- A statement is reported, and then those in it, with the levels that they have in the tree. -/
private theorem traces_statement (depth room : Nat) (s : Stream) (hs : s.Scanned) :
    Traces (depth + 1) s (statement depth room s) := by
  induction room generalizing depth s with
  | zero => exact fun r hr ↦ absurd ⟨hr, rfl⟩ not_yields_statement_zero
  | succ room ih =>
    intro r hr
    obtain ⟨hinside, hrest⟩ := yields_statement_succ.mp ⟨hr, rfl⟩
    obtain ⟨w, ts, hw, hbegins, hopen, htrace⟩ := tracesInside_anyStatement
      derives_of_yields (quiet_expression (depth + 1) room)
      (progressive_memberItem (depth + 1) room) (ih (depth + 1)) hs r hinside
    rw [hrest] at hw hopen
    refine ⟨w, s.current :: ts, hw, hbegins, hopen, ?_⟩
    rw [statement, reports_nested, current_bind_apply, reports_report_bind, htrace,
      r.levels_eq_cons]
    rfl

end

/-! ## Declarations -/

section

variable {ty : VarType} {d : Declaration} {ds : List Declaration}

private theorem reports_declaredName (h : Yields (declaredName ty) s d s') :
    reports (declaredName ty s) = [d.report] := by
  obtain ⟨t, hkind, hread, rfl⟩ := yields_declaredName.mp h
  have hname : Yields (expect (.kind .identifier) .declaration) s t s' :=
    (yields_expect_kind (by decide)).mpr ⟨hkind, hread⟩
  rw [declaredName, reports_bind hname, reports_expect, reports_report_bind]
  rfl

private theorem reports_declaredNames (h : Yields (declaredNames ty) s ds s') :
    reports (declaredNames ty s) = ds.map Declaration.report := by
  obtain ⟨d, s₁, others, c, hd, hothers, hc, rfl⟩ := yields_declaredNames.mp h
  have hreports : reports (many (nameItem ty) s₁) = others.map Declaration.report := by
    refine reports_many progressive_nameItem
      (P := fun _ ds es ↦ es = ds.map Declaration.report) rfl ?_ hothers
    rintro s s₁ p d ds _ hitem hd rfl
    obtain ⟨-, rfl⟩ := eq_of_nameItem_eq_some hitem
    rw [reports_bind (yields_advance.mpr ⟨rfl, rfl⟩), reports_advance,
      reports_declaredName (yields_advance_bind.mp hd)]
    rfl
  have hmany : Yields (many (nameItem ty)) s₁ others _ :=
    (yields_many progressive_nameItem).mpr hothers
  have hrule : declaredNames ty = declaredName ty >>= fun first ↦ many (nameItem ty) >>=
      fun others ↦ expectSeparator ";" .declaration >>= fun _ ↦ pure (first :: others) := rfl
  rw [hrule, reports_bind hd, reports_declaredName hd, reports_bind hmany, hreports,
    reports_bind (yields_expectSeparator.mpr ⟨hc, rfl⟩), reports_expectSeparator]
  exact congrArg (d.report :: ·) (List.append_nil _)

private theorem reports_declarations (h : Yields declarations s ds s') :
    reports (declarations s) = ds.map Declaration.report := by
  obtain ⟨groups, hgroups, rfl⟩ := yields_declarations.mp h
  rw [declarations, bind_pure_comp, reports_map]
  refine reports_many progressive_typeItem
    (P := fun _ groups es ↦ es = groups.flatten.map Declaration.report) rfl ?_ hgroups
  rintro s s₁ p ds groups _ hitem hds rfl
  obtain ⟨ty, -, rfl⟩ := Option.map_eq_some_iff.mp hitem
  rw [reports_bind (yields_advance.mpr ⟨rfl, rfl⟩), reports_advance,
    reports_declaredNames (yields_advance_bind.mp hds), List.flatten_cons, List.map_append]
  rfl

end

/-! ## Programs -/

/-- A program that is read is reported as a whole. -/
private theorem traces_program {limit : Nat} {p : Program} (hs : s.Scanned)
    (h : Yields (program limit) s p s') : ∃ ts, BeginsProgram s.tokens p ts ∧
      reports (program limit s) = p.reports ts := by
  obtain ⟨k, o, c, s₁, s₂, s₃, groups, ms, hk, ho, hc, rfl, hgroups, hms, hend, -, rfl⟩ :=
    yields_program.mp h
  have hprogress := progressive_memberItem 0 limit
  obtain ⟨u, rfl, hu⟩ := derivesDeclarations_of_repeats hgroups
  obtain ⟨w, ts, hw, hall, htrace⟩ :=
    traces_members hprogress (traces_statement 0 limit) hms hs.of_prepend.of_prepend
  have hdeclarations : Yields declarations _ groups.flatten s₂ :=
    yields_declarations.mpr ⟨groups, hgroups, rfl⟩
  have hmembers : Yields (statements (statement 0 limit)) s₂ ms _ :=
    (yields_many hprogress).mpr hms
  have hmain : Yields (expect (.lexeme .keyword "main") .program)
      ((s₂.prepend u).prepend [k, o]) k ((s₂.prepend u).prepend [o]) :=
    (yields_expect_lexeme (by decide)).mpr ⟨hk, rfl⟩
  have hlast : Yields (expect (.kind .endOfInput) .program) s₃ s₃.current s₃.advance :=
    yields_expect.mpr ⟨decide_eq_true hend, rfl, rfl⟩
  refine ⟨ts, ?_, ?_⟩
  · have hnil : s₃.tokens = [] := by
      rw [hw] at hs
      exact hs.of_prepend.of_prepend.of_prepend.of_prepend.tokens_eq_nil hend
    have htokens : ((s₂.prepend u).prepend [k, o]).tokens = k :: o :: (u ++ (w ++ [c])) := by
      simp [hw, hnil]
    rw [htokens]
    exact .intro hk ho hu hall hc
  · rw [program, programFrom, reports_report_bind, reports_bind hmain, reports_expect,
      reports_bind (yields_expectSeparator.mpr ⟨ho, rfl⟩), reports_expectSeparator,
      reports_bind hdeclarations, reports_declarations hdeclarations, reports_bind hmembers, htrace,
      reports_bind (yields_expectSeparator.mpr ⟨hc, rfl⟩), reports_expectSeparator,
      reports_bind hlast, reports_expect, reports_report_bind]
    rfl

private theorem programEnd_of_end (p : Program) (h : s.tokens = []) :
    programEnd p s = ⟨.ok p, s, [.read s.current,
      .event (.programParsed p.declarations.length p.body.members.length)]⟩ := by
  obtain ⟨tokens, stop⟩ := s
  obtain rfl : tokens = [] := h
  rfl

private theorem programEnd_of_ne_end (p : Program) (h : s.current.kind ≠ .endOfInput) :
    ∃ e, programEnd p s = ⟨.error e, s, []⟩ := by
  have hexpect : expect (.kind .endOfInput) .program s =
      unexpected .program (.one (.kind .endOfInput)) s := by
    rw [expect, current_bind_apply, if_neg]
    exact (decide_eq_false h).trans_ne (by decide)
  rw [programEnd, bind_eq_of_error (congrArg Outcome.result hexpect), hexpect]
  exact ⟨_, rfl⟩

/-- A program is read where its body is and nothing stands behind it. The end of input is then read
as well. -/
theorem program_eq (limit : Nat) (hs : s.Scanned) :
    (∃ e, program limit s =
      ⟨.error e, (programBody 0 limit s).rest, (programBody 0 limit s).log⟩) ∨
    (∃ p, (programBody 0 limit s).rest.tokens = [] ∧ program limit s =
      ⟨.ok p, (programBody 0 limit s).rest, (programBody 0 limit s).log ++
        [.read (programBody 0 limit s).rest.current,
          .event (.programParsed p.declarations.length p.body.members.length)]⟩) := by
  rw [program, programFrom_eq]
  cases hbody : (programBody 0 limit s).result with
  | error e =>
    rw [bind_eq_of_error hbody]
    exact .inl ⟨e, rfl⟩
  | ok p =>
    have hyields : Yields (programBody 0 limit) s p _ := ⟨hbody, rfl⟩
    have hscanned : (programBody 0 limit s).rest.Scanned := by
      rw [(tells_programBody 0 limit s).prepend_reads] at hs
      exact hs.of_prepend
    rw [bind_eq_of_yields hyields]
    by_cases hend : (programBody 0 limit s).rest.current.kind = .endOfInput
    · have hnil := hscanned.tokens_eq_nil hend
      rw [programEnd_of_end p hnil]
      exact .inr ⟨p, hnil, rfl⟩
    · obtain ⟨e, he⟩ := programEnd_of_ne_end p hend
      rw [he, List.append_nil]
      exact .inl ⟨e, rfl⟩

/-- That a program was read is reported where one is, and the end of the text has then been
scanned. -/
private theorem program_cases (limit : Nat) (hs : s.Scanned) :
    (∃ e, (program limit s).result = .error e ∧
      (program limit s).events = (programBody 0 limit s).events) ∨
    (∃ p, (program limit s).result = .ok p ∧ (programBody 0 limit s).rest.tokens = [] ∧
      (program limit s).events = (programBody 0 limit s).events ++
        [.programParsed p.declarations.length p.body.members.length]) := by
  rcases program_eq limit hs with ⟨e, heq⟩ | ⟨p, hnil, heq⟩
  · rw [heq]
    exact .inl ⟨e, rfl, rfl⟩
  · rw [heq]
    exact .inr ⟨p, rfl, hnil, List.filterMap_append⟩

/-- A statement is reported directly behind the scan of its first token. -/
private theorem heralded_program {limit : Nat} {t : Token} {d : Nat} {before after : List Event}
    (hs : s.Scanned) (heq : (program limit s).events = before ++ .statementStarted t d :: after) :
    (before = [] ∧ t = s.current) ∨ before.getLast? = some (.scanned t) := by
  have hbody : ∀ {after},
      (programBody 0 limit s).events = before ++ .statementStarted t d :: after →
        (before = [] ∧ t = s.current) ∨ before.getLast? = some (.scanned t) := fun heq ↦
    ((tells_programBody 0 limit s).heralded heq).imp_left fun h ↦ ⟨h.1, h.2.2⟩
  rcases program_cases limit hs with ⟨e, -, hevents⟩ | ⟨p, -, -, hevents⟩
  · exact hbody (hevents.symm.trans heq)
  · have hprefix : before ++ [.statementStarted t d] <+: (programBody 0 limit s).events ++
        [.programParsed p.declarations.length p.body.members.length] := by
      rw [← hevents, heq]
      exact ⟨after, List.append_assoc _ _ _⟩
    rcases List.prefix_concat_iff.mp hprefix with hlast | ⟨after', hafter⟩
    · exact absurd (List.append_inj' hlast rfl).2 (by simp)
    · exact hbody (hafter.symm.trans (List.append_assoc _ _ _))

/-- The tokens that a run has pulled from the scanner: those that it has read, and the one that it
looks at where it stops. -/
def pulled (o : Outcome α) : List Token := o.reads ++ [o.rest.current]

/-- The scans that a program reports are those of the tokens that its body has pulled. -/
theorem scans_program (limit : Nat) (hs : s.Scanned) :
    .scanned s.current :: (program limit s).events.filter Event.isScan =
      (pulled (programBody 0 limit s)).map .scanned := by
  have hbody : (program limit s).events.filter Event.isScan =
      (programBody 0 limit s).events.filter Event.isScan := by
    rcases program_cases limit hs with ⟨e, -, hevents⟩ | ⟨p, -, -, hevents⟩
    · rw [hevents]
    · rw [hevents, List.filter_append]
      exact List.append_nil _
  rw [hbody]
  exact (tells_programBody 0 limit s).scans_eq fun _ ↦ id

private theorem toList_programBody (limit : Nat) (s : Stream) :
    s.toList = (programBody 0 limit s).reads ++ (programBody 0 limit s).rest.toList := by
  conv_lhs => rw [(tells_programBody 0 limit s).prepend_reads]
  exact toList_prepend _ _

theorem pulled_programBody_isPrefix (limit : Nat) (s : Stream) :
    pulled (programBody 0 limit s) <+: s.toList := by
  obtain ⟨ts, hts⟩ := exists_toList_eq (programBody 0 limit s).rest
  rw [toList_programBody limit s, hts]
  exact (List.prefix_append_right_inj _).mpr ⟨ts, rfl⟩

private theorem scans_program_isPrefix (limit : Nat) (hs : s.Scanned) :
    .scanned s.current :: (program limit s).events.filter Event.isScan <+:
      s.toList.map .scanned := by
  rw [scans_program limit hs]
  exact (pulled_programBody_isPrefix limit s).map _

theorem toList_of_end {limit : Nat} (hnil : (programBody 0 limit s).rest.tokens = []) :
    s.toList = pulled (programBody 0 limit s) := by
  rw [toList_programBody limit s, pulled, Stream.toList, Stream.current, hnil]
  rfl

/-- Where a program is read, everything is scanned. -/
private theorem scans_program_of_end (limit : Nat) (hs : s.Scanned)
    (hnil : (programBody 0 limit s).rest.tokens = []) :
    .scanned s.current :: (program limit s).events.filter Event.isScan =
      s.toList.map .scanned := by
  rw [scans_program limit hs, toList_of_end hnil]

private theorem programParsed_notMem_programBody {limit m n : Nat} :
    .programParsed m n ∉ (programBody 0 limit s).events := by
  intro h
  rcases (tells_programBody 0 limit s).scanned_or_of_mem _ h with ⟨t, ht⟩ | hprogress
  · exact absurd ht (by simp)
  · exact hprogress

end Rule

open Rule

/-! ## Parses -/

section

variable {source : String}

private theorem events_parseRun (source : String) : (parseRun source).events =
    .scanned (Stream.ofSource source).current ::
      (program maxNesting (Stream.ofSource source)).events :=
  rfl

private theorem heralded_parseRun {t : Token} {d : Nat} {before after : List Event}
    (heq : (parseRun source).events = before ++ .statementStarted t d :: after) :
    before.getLast? = some (.scanned t) := by
  rw [events_parseRun] at heq
  cases before with
  | nil => exact absurd (List.cons.inj heq).1 (by simp)
  | cons e before =>
    obtain ⟨rfl, htail⟩ := List.cons.inj heq
    rcases heralded_program (Stream.scanned_ofSource source) htail with ⟨rfl, rfl⟩ | hlast
    · rfl
    · rw [List.getLast?_cons, hlast]
      rfl

/-- **The trace of a parse is a faithful account of it.** A scan reports every token of a source,
stray characters as warnings, and then the end of input. A parse reports these scans up to some
token, and all of them if it comes to a program; every statement that it reports is shown with the
token scanned just before. If it comes to an error, it reports no program. If it comes to a program
`p`, what is shown of the parser is that it sets out, the names and types that `p` declares, the
statements of `p` in the order of the text, each with its first token and its level, and that it
has read `p`, with the numbers of declarations and of statements. -/
theorem parse_traced (source : String) : ∃ ts n, Token.scan source = ts ++ [.endOfInput n] ∧
    (∀ t ∈ ts, t.kind ≠ .endOfInput) ∧
    ((Token.scan source).map Event.scanned).map Event.record =
      ts.map Token.scanRecord ++ [⟨.trace, "end of input", [("offset", .number n)]⟩] ∧
    (parseRun source).events.filter Event.isScan <+: (Token.scan source).map .scanned ∧
    (∀ before e after, (parseRun source).events = before ++ e :: after →
      e.message = "statement" → ∃ t d, e = .statementStarted t d ∧
        e.record = statementRecord t d ∧ before.getLast? = some (.scanned t)) ∧
    match parse source with
    | .error _ => ∀ e ∈ (parseRun source).events, e.message ≠ "parsed program"
    | .ok p => (parseRun source).events.filter Event.isScan = (Token.scan source).map .scanned ∧
      ∃ firsts, BeginsProgram ts p firsts ∧ (∀ us, BeginsProgram ts p us → us = firsts) ∧
        firsts.length = (Statement.levelsOf p.body.members 1).length ∧
        (parseRun source).events.filter Event.isReport = p.reports firsts ∧
        ((parseRun source).events.filter Event.isReport).map Event.record = p.records firsts := by
  have hs := Stream.scanned_ofSource source
  have hkinds : ∀ t ∈ (Stream.ofSource source).tokens, t.kind ≠ .endOfInput :=
    fun t ht ↦ (hs t ht).ne_endOfInput
  refine ⟨_, _, rfl, hkinds, ?_, scans_program_isPrefix maxNesting hs, ?_, ?_⟩
  · rw [List.map_map, ← Stream.toList_ofSource, Stream.toList, List.map_append]
    exact congrArg (· ++ _) (List.map_congr_left fun t ht ↦ Event.record_scanned (hkinds t ht))
  · intro before e after heq hmessage
    obtain ⟨t, d, rfl⟩ := Event.exists_statementStarted hmessage
    exact ⟨t, d, rfl, rfl, heralded_parseRun heq⟩
  · rcases program_cases maxNesting hs with ⟨e, herror, hbody⟩ | ⟨p, hok, hnil, hbody⟩
    · rw [show parse source = .error e from herror]
      intro e' he' hmessage
      obtain ⟨m, n, rfl⟩ := Event.exists_programParsed hmessage
      rw [events_parseRun, hbody] at he'
      exact programParsed_notMem_programBody ((List.mem_cons.mp he').resolve_left (by simp))
    · rw [show parse source = .ok p from hok]
      obtain ⟨firsts, hbegins, hreports⟩ := traces_program hs ⟨hok, rfl⟩
      have hrecords : ((parseRun source).events.filter Event.isReport).map Event.record =
          p.records firsts :=
        (congrArg (List.map Event.record) hreports).trans (p.map_record_reports firsts)
      exact ⟨scans_program_of_end maxNesting hs hnil, firsts, hbegins,
        fun us hus ↦ hus.unique hbegins, hbegins.length_eq 1, hreports, hrecords⟩

/-- A result is a given program if that can be checked. -/
private theorem eq_ok_of_toOption {r : Except SyntaxError Program} {p : Program}
    (h : r.toOption = some p) : r = .ok p := by
  cases r with
  | error e => exact absurd h (by simp [Except.toOption])
  | ok q => exact congrArg Except.ok (Option.some.inj h)

/-- In this text a conditional begins at `if`, and its branches begin at `x` and at the last `;`. -/
theorem parse_traced_branches :
    ∃ p ts n, parse "main \x7b bool b; if (b) x := 1; else ; \x7d" = .ok p ∧
      Token.scan "main \x7b bool b; if (b) x := 1; else ; \x7d" = ts ++ [.endOfInput n] ∧
      BeginsProgram ts p [⟨.keyword, "if", ⟨15, 17⟩⟩, ⟨.identifier, "x", ⟨22, 23⟩⟩,
        ⟨.separator, ";", ⟨35, 36⟩⟩] ∧
      ((parseRun "main \x7b bool b; if (b) x := 1; else ; \x7d").events.filter
        Event.isReport).map Event.record =
          [⟨.debug, "parsing program", []⟩,
            ⟨.trace, "declared", [("name", .plain "b"), ("ty", .plain "BOOLEAN")]⟩,
            ⟨.trace, "statement", [("token", .plain "Keyword if"), ("depth", .number 1)]⟩,
            ⟨.trace, "statement", [("token", .plain "Identifier x"), ("depth", .number 2)]⟩,
            ⟨.trace, "statement", [("token", .plain "Separator ;"), ("depth", .number 2)]⟩,
            ⟨.debug, "parsed program",
              [("declarations", .number 1), ("statements", .number 1)]⟩] := by
  have hparse : parse "main \x7b bool b; if (b) x := 1; else ; \x7d" = .ok ⟨[⟨.boolean, ⟨"b"⟩⟩],
      ⟨[.conditional (.variable ⟨"b"⟩) (.assignment ⟨"x"⟩ (.value (.integer 1))) (some .skip)]⟩⟩ :=
    eq_ok_of_toOption (by decide +kernel)
  have hevents : (parseRun "main \x7b bool b; if (b) x := 1; else ; \x7d").events.filter
      Event.isReport = [.programStarted, .declared "b" .boolean,
        .statementStarted ⟨.keyword, "if", ⟨15, 17⟩⟩ 1,
        .statementStarted ⟨.identifier, "x", ⟨22, 23⟩⟩ 2,
        .statementStarted ⟨.separator, ";", ⟨35, 36⟩⟩ 2, .programParsed 1 1] := by decide +kernel
  obtain ⟨ts, n, hscan, -, -, -, -, htrace⟩ :=
    parse_traced "main \x7b bool b; if (b) x := 1; else ; \x7d"
  rw [hparse] at htrace
  obtain ⟨-, firsts, hbegins, -, hlength, hreports, hrecords⟩ := htrace
  rw [hevents] at hreports
  -- The first tokens are those that the events name.
  obtain rfl : firsts = [⟨.keyword, "if", ⟨15, 17⟩⟩, ⟨.identifier, "x", ⟨22, 23⟩⟩,
      ⟨.separator, ";", ⟨35, 36⟩⟩] := by
    match firsts, hlength, hreports with
    | [_, _, _], _, hreports =>
      simp only [Program.reports, Statement.levelsOf, Statement.levels, List.map_cons,
        List.map_nil, List.cons_append, List.nil_append, List.append_nil, List.zipWith_cons_cons,
        List.zipWith_nil_left, List.cons.injEq, Event.statementStarted.injEq, and_true,
        true_and] at hreports
      obtain ⟨-, rfl, rfl, rfl, -⟩ := hreports
      rfl
  exact ⟨_, ts, n, hparse, hscan, hbegins, hrecords.trans (by decide +kernel)⟩

end

end Kay
