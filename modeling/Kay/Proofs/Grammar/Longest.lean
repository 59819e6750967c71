import Kay.Proofs.Grammar.Earliest
import Kay.Proofs.Grammar.Recount

/-!
# Expressions are read as far as they go

A parser that is asked for an expression reads the longest one that the tokens ahead begin with, and
it reads every one behind which no operator stands (`Parser.expression_longest`).

Why nothing longer can be derived is not seen from the token behind, which may well be an operator:
of `a < b < c` the first comparison is read. A run depends on what it has seen, the tokens it reads
and the one behind them. If a longer stretch were an expression, the run on that stretch alone would
have to read all of it, and at the same time stop where it stopped before.
-/

namespace Kay

open Grammar

namespace Rule

variable {s s' : Stream} {e f : Expression} {room room' n : Nat} {v w : List Token}

private theorem reads_expression (h : Yields (expression 0 room) (s'.prepend w) e s') :
    (expression 0 room (s'.prepend w)).reads = w := by
  have hprepend := (quiet_expression 0 room (fun _ ↦ False) true (s'.prepend w)).prepend_reads
  rw [h.2] at hprepend
  exact (List.append_cancel_right (congrArg Stream.tokens hprepend)).symm

private theorem expression_eq_of_le (h : Yields (expression 0 room) s e s') (hle : room ≤ room') :
    expression 0 room' s = expression 0 room s := by
  have halike := steady_expression (d := 0) hle (Nat.zero_add _) (Nat.zero_add _) none
  have hcuts := halike.cuts (Setting.fits_none (s := s))
  obtain ⟨hresult, -⟩ := h
  generalize expression 0 room s = o, expression 0 room' s = o' at hcuts hresult ⊢
  cases hcuts with
  | same => rfl
  | cut hdeep => exact absurd (hdeep.symm.trans hresult) (by simp)

private theorem yields_ofTerminals {w : List Terminal} (h : DerivesExpression .disjunction w e n)
    (hn : n ≤ room) :
    Yields (expression 0 room) (.ofTerminals w) e (.ofTerminals []) := by
  have hread : Stream.ofTerminals w =
      (Stream.ofTerminals []).prepend (Stream.ofTerminals w).tokens := by
    simp [Stream.prepend, Stream.ofTerminals]
  rw [hread]
  exact yields_of_derives (by rwa [Stream.map_terminal_ofTerminals]) hn (by decide)

private theorem agree_of_isPrefix (hv : v <+: s.toList) :
    Agree v.length s (.ofTerminals (v.map Token.terminal)) := by
  obtain ⟨rest, hrest⟩ := hv
  have hterminals : s.tokens.map Token.terminal ++ [.endOfInput] =
      v.map Token.terminal ++ rest.map Token.terminal := by
    rw [← List.map_append, hrest, Stream.toList, List.map_append]
    rfl
  intro i hi
  rw [terminal_current_drop, terminal_current_drop, Stream.map_terminal_ofTerminals,
    ← getD_append_endOfInput, hterminals, List.getD_eq_getElem?_getD,
    List.getElem?_append_left (by simpa using hi), ← List.getD_eq_getElem?_getD]

/-- No longer stretch of the stream than the one that was read is an expression. -/
private theorem not_derives_of_length_lt (h : Yields (expression 0 room) s e s')
    (hv : v <+: s.toList) (hlt : (expression 0 room s).reads.length < v.length) :
    ¬ DerivesExpression .disjunction (v.map Token.terminal) f n := by
  intro hderives
  -- The limit is of no matter, so it may be one that both expressions keep to.
  have hrun := expression_eq_of_le h (Nat.le_max_left room n)
  have hseen : seen (expression 0 (max room n) s) = (expression 0 room s).reads.length + 1 := by
    rw [hrun, seen, h.1]
  have hsteady := steady_expression (d := 0) (Nat.le_refl (max room n)) (Nat.zero_add _)
    (Nat.zero_add _) none
  have hmirrors := hsteady.mirrors Setting.fits_none
    ((agree_of_isPrefix hv).mono (hseen.trans_le hlt))
  rw [hrun] at hmirrors
  -- On the longer stretch alone the run stops behind the shorter one, and yet it reads everything.
  have hshort : Yields (expression 0 (max room n)) (.ofTerminals (v.map Token.terminal)) e
      ((Stream.ofTerminals (v.map Token.terminal)).drop (expression 0 room s).reads.length) :=
    ⟨(h.1 ▸ hmirrors.same).eq_ok, hmirrors.rest_eq⟩
  have hall : Yields (expression 0 (max room n)) (.ofTerminals (v.map Token.terminal)) f
      (.ofTerminals []) := yields_ofTerminals hderives (Nat.le_max_right room n)
  have htokens := congrArg (·.tokens.length) (hshort.unique hall).2
  simp only [Stream.drop, Stream.ofTerminals, List.length_drop, List.length_map] at htokens
  exact absurd hlt (Nat.not_lt.mpr (Nat.sub_eq_zero_iff_le.mp htokens))

end Rule

private theorem Grammar.DerivesExpression.tree_unique {w : List Terminal} {e f : Expression}
    {m n : Nat} (h : DerivesExpression .disjunction w e m)
    (h' : DerivesExpression .disjunction w f n) : e = f :=
  ((Rule.yields_ofTerminals h (Nat.le_max_left m n)).unique
    (Rule.yields_ofTerminals h' (Nat.le_max_right m n))).1

namespace Parser

variable {source : String} {p p' : Parser} {e : Expression}

/-! ## Parsers between calls -/

private theorem scanned_after (source : String) (calls : List Call) :
    ((start source).after calls).stream.Scanned := by
  have hcalls : ∀ (calls : List Call) (p : Parser), p.Follows source → p.stream.Scanned →
      (p.after calls).stream.Scanned := by
    intro calls
    induction calls with
    | nil => exact fun _ _ h ↦ h
    | cons c calls ih =>
      intro p hp hs
      refine ih _ (hp.call c) ?_
      obtain ⟨consumed, stream, depth⟩ := p
      obtain rfl : depth = 0 := hp.depth_eq
      have hrest : ((⟨consumed, stream, 0⟩ : Parser).call c).2.stream = _ :=
        (Rule.accounted_call c stream).replays.rest_eq
      rw [hrest]
      exact fun t ht ↦ hs t (List.mem_of_mem_drop ht)
  exact hcalls calls _ (follows_start source) (Stream.scanned_ofSource source)

private theorem call_expression_iff (h : p.Follows source) :
    p.call .expression = (.ok (.expression e), p') ↔
      (Rule.expression 0 maxNesting).Yields p.stream e p'.stream ∧ p'.depth = 0 ∧
        p'.consumed = p.consumed ++ (Rule.expression 0 maxNesting p.stream).reads := by
  have hdepth := (h.call .expression).depth_eq
  obtain ⟨consumed, stream, depth⟩ := p
  obtain rfl : depth = 0 := h.depth_eq
  have hcall : (⟨consumed, stream, 0⟩ : Parser).call .expression =
      ((Rule.expression 0 maxNesting stream).result.map .expression,
        ⟨consumed ++ (Rule.expression 0 maxNesting stream).reads,
          (Rule.expression 0 maxNesting stream).rest,
          openLevels 0 (Rule.expression 0 maxNesting stream).log⟩) := rfl
  rw [hcall] at hdepth ⊢
  rw [Prod.mk.injEq]
  constructor
  · rintro ⟨hresult, rfl⟩
    refine ⟨⟨?_, rfl⟩, hdepth, rfl⟩
    cases hrun : (Rule.expression 0 maxNesting stream).result with
    | error error => exact absurd hresult (by simp [hrun, Except.map])
    | ok f =>
      rw [hrun, Except.map, Except.ok.injEq, Answer.expression.injEq] at hresult
      rw [hresult]
  · rintro ⟨⟨hresult, hrest⟩, hdepth', hconsumed⟩
    rw [hresult]
    refine ⟨rfl, ?_⟩
    rw [Parser.mk.injEq]
    exact ⟨hconsumed.symm, hrest, hdepth.trans hdepth'.symm⟩

/-- The operators at which a parser goes on with an expression. There is no other way to write a
difference than `!=` in a text. -/
private theorem isOperatorIn_continuing {s : Stream} (hs : s.Scanned)
    (h : s.current.isOperatorIn ["||", "&&", "<", "<=", ">", ">=", "==", "!=", "+", "-", "*", "/"] =
      false) : s.current.isOperatorIn (Rule.continuing .disjunction) = false := by
  have hall : ∀ op ∈ operators, op ∈ Rule.continuing .disjunction →
      op ∈ ["||", "&&", "<", "<=", ">", ">=", "==", "!=", "+", "-", "*", "/"] := by decide
  rw [← Bool.not_eq_true, Token.isOperatorIn_iff] at h ⊢
  rintro ⟨op, hop, hterminal⟩
  exact h ⟨op, hall op (hs.mem_operators hterminal) hop, hterminal⟩

private theorem exists_prepend_of_toList {s : Stream} {w v : List Token} {t : Token}
    (h : s.toList = w ++ t :: v) : ∃ s' : Stream, s = s'.prepend w ∧ s'.toList = t :: v := by
  obtain ⟨tokens, stop⟩ := s
  rcases List.eq_nil_or_concat (t :: v) with hnil | ⟨front, last, hconcat⟩
  · exact absurd hnil (by simp)
  · rw [hconcat, List.concat_eq_append, ← List.append_assoc] at h
    obtain ⟨rfl, hlast⟩ := List.append_inj' h rfl
    refine ⟨⟨front, stop⟩, rfl, ?_⟩
    rw [hconcat, List.concat_eq_append, ← hlast]
    rfl

/-- **An expression is read as far as it goes.** Whatever a parser was asked before, it has no level
open. If it then reads an expression, the tokens that it consumes stand for this expression and no
other, and no longer stretch of what was ahead stands for any, however deeply it may be nested.
Conversely, of every stretch that stands for an expression within the limit on nesting, and behind
which no operator stands that could continue it, the parser reads just that. -/
theorem expression_longest (source : String) (calls : List Call) :
    ∃ p, (start source).after calls = p ∧ p.depth = 0 ∧
      (∀ e p', p.call .expression = (.ok (.expression e), p') → ∃ w n,
        p.stream.toList = w ++ p'.stream.toList ∧ p'.consumed = p.consumed ++ w ∧
        DerivesExpression .disjunction (w.map Token.terminal) e n ∧
        (∀ f m, DerivesExpression .disjunction (w.map Token.terminal) f m → f = e) ∧
        ∀ v, v <+: p.stream.toList → w.length < v.length → ∀ f m,
          ¬ DerivesExpression .disjunction (v.map Token.terminal) f m) ∧
      ∀ w t v e n, p.stream.toList = w ++ t :: v →
        DerivesExpression .disjunction (w.map Token.terminal) e n → n ≤ maxNesting →
        t.isOperatorIn ["||", "&&", "<", "<=", ">", ">=", "==", "!=", "+", "-", "*", "/"] = false →
        ∃ p', p.call .expression = (.ok (.expression e), p') ∧ p'.consumed = p.consumed ++ w ∧
          p'.stream.toList = t :: v := by
  have hfollows := (follows_start source).after calls
  have hscanned := scanned_after source calls
  refine ⟨_, rfl, hfollows.depth_eq, ?_, ?_⟩
  · intro e p' hcall
    obtain ⟨hyields, -, hconsumed⟩ := (call_expression_iff hfollows).mp hcall
    obtain ⟨w, n, hw, hderives, -⟩ := Rule.derives_of_yields hscanned hyields
    rw [hw] at hyields hconsumed
    have hreads := Rule.reads_expression hyields
    rw [hreads] at hconsumed
    refine ⟨w, n, hw ▸ toList_prepend _ _, hconsumed, hderives, fun f m hf ↦
      hf.tree_unique hderives, fun v hv hlt f m ↦ ?_⟩
    exact Rule.not_derives_of_length_lt hyields (hw ▸ hv) (hreads.symm ▸ hlt)
  · intro w t v e n hlist hderives hn ht
    obtain ⟨s', hs', hbehind⟩ := exists_prepend_of_toList hlist
    obtain ⟨ts, hts⟩ := exists_toList_eq s'
    obtain rfl := (List.cons.inj (hts.symm.trans hbehind)).1
    rw [hs'] at hscanned
    have hyields : (Rule.expression 0 maxNesting).Yields (s'.prepend w) e s' := by
      rw [Rule.expression_eq]
      exact (Rule.reads_of_derives hderives 0 maxNesting hn).1 rfl
        (isOperatorIn_continuing hscanned.of_prepend ht)
    refine ⟨⟨_ ++ w, s', 0⟩, (call_expression_iff hfollows).mpr ⟨hs' ▸ hyields, rfl, ?_⟩, rfl,
      hbehind⟩
    rw [hs', Rule.reads_expression hyields]

/-- A parser that has read `a` goes on with the comparison behind it and reads no more than that. -/
theorem expression_longest_comparison :
    ∃ p', ((start "a b < c ) d").after [.expression]).call .expression =
        (.ok (.expression (.binary ⟨"<"⟩ (.variable ⟨"b"⟩) (.variable ⟨"c"⟩))), p') ∧
      p'.consumed.map Token.text = ["a", "b", "<", "c"] ∧
      ∀ v, v <+: ((start "a b < c ) d").after [.expression]).stream.toList → 3 < v.length →
        ∀ f m, ¬ DerivesExpression .disjunction (v.map Token.terminal) f m := by
  have hname (name : String) :
      DerivesExpression .addition [.identifier name] (.variable ⟨name⟩) 0 :=
    .of_negation (.operand (by decide) (.atom (.reference name))) (by decide)
  have hcompare : DerivesExpression .relation
      ([.identifier "b"] ++ .operator "<" :: [.identifier "c"])
      (.binary ⟨"<"⟩ (.variable ⟨"b"⟩) (.variable ⟨"c"⟩)) (max 0 0) :=
    .compare (by decide) (hname "b") (hname "c")
  obtain ⟨p, rfl, -, hlongest, hreads⟩ := expression_longest "a b < c ) d" [.expression]
  have hahead : ((start "a b < c ) d").after [.expression]).stream.toList =
      [⟨.identifier, "b", ⟨2, 3⟩⟩, ⟨.operator, "<", ⟨4, 5⟩⟩, ⟨.identifier, "c", ⟨6, 7⟩⟩] ++
        ⟨.separator, ")", ⟨8, 9⟩⟩ :: [⟨.identifier, "d", ⟨10, 11⟩⟩, .endOfInput 11] := by
    decide +kernel
  obtain ⟨p', hcall, hconsumed, -⟩ :=
    hreads _ _ _ _ _ hahead hcompare.to_disjunction (by decide) (by decide)
  obtain ⟨w, n, -, hconsumed', -, -, hmaximal⟩ := hlongest _ p' hcall
  obtain rfl := List.append_cancel_left (hconsumed'.symm.trans hconsumed)
  refine ⟨p', hcall, ?_, hmaximal⟩
  rw [hconsumed]
  decide +kernel

end Parser

end Kay
