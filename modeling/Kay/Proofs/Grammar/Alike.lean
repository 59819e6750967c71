import Kay.Proofs.Grammar.Program

/-!
# Two runs of one grammar

Facts about all rules of the grammar, such as that a run leaves every level that it enters, hold
because the primitives of rules keep them. To go through the grammar only once for all such facts,
`Alike` says how rules are put together: two rules are alike if they are built in the same way from
primitives, one for a run under `limit` and one for a run under `limit'`. The two runs may also be
on different streams. Then the tokens that they look at agree as terminals, but not in their places,
and what a rule does may depend on the terminal alone.

There is one place where alike rules differ. A level that would exceed the smaller limit is refused
by the first rule and entered by the second (`Alike.cut`).

What a rule may do depends on its setting: the number of levels that are open, whether one of them
was opened without anything being read since, and what is known about the token ahead. The walk
through the grammar ends in `steady_level`, `steady_statement` and `alike_programFrom`. What follows
from it is for the modules behind this one, each with an induction on `Alike` of its own.
-/

namespace Kay.Rule

variable {α β : Type}

/-! ## How rules are built -/

/-- Where two runs begin a rule. -/
structure Setting where
  /-- The number of levels that are open. -/
  depth : Nat
  /-- Whether a level was opened and nothing has been read since. -/
  fresh : Bool
  /-- The tokens ahead of the two runs, where these have been looked at. -/
  ahead : Option (Token × Token)

/-- The setting in which nothing is known about the tokens ahead. -/
abbrev Setting.onward (x : Setting) : Setting := { x with ahead := none }

/-- The setting in which the given tokens are ahead. -/
abbrev Setting.facing (x : Setting) (t u : Token) : Setting := { x with ahead := some (t, u) }

/-- The setting behind a token that was read. -/
abbrev Setting.behind (x : Setting) : Setting := ⟨x.depth, false, none⟩

/-- The setting in which a level has just been opened. -/
abbrev Setting.inside (x : Setting) : Setting := ⟨x.depth + 1, true, x.ahead⟩

/-- What is known about the tokens ahead holds of two streams. -/
def Setting.Fits (x : Setting) (s u : Stream) : Prop :=
  ∀ t v, x.ahead = some (t, v) → s.current = t ∧ u.current = v

theorem Setting.fits_none {depth : Nat} {fresh : Bool} {s u : Stream} :
    Setting.Fits ⟨depth, fresh, none⟩ s u :=
  nofun

theorem Setting.fits_facing {x : Setting} {s u : Stream} :
    (x.facing s.current u.current).Fits s u := by
  rintro t v h
  obtain ⟨rfl, rfl⟩ := Prod.mk.inj (Option.some.inj h)
  exact ⟨rfl, rfl⟩

/-- `Alike limit limit' x p q`: in the setting `x`, the rule `q` for runs under `limit'` is built as
the rule `p` is for runs under `limit`. -/
inductive Alike (limit limit' : Nat) : {α : Type} → Setting → Rule α → Rule α → Prop
  | pure {α : Type} {x : Setting} (a : α) : Alike limit limit' x (pure a) (pure a)
  | bind {α β : Type} {x : Setting} {p q : Rule α} {f g : α → Rule β}
      (hp : Alike limit limit' x p q) (hf : ∀ a, Alike limit limit' x.onward (f a) (g a)) :
      Alike limit limit' x (p >>= f) (q >>= g)
  | look {α : Type} {x : Setting} {f g : Token → Rule α}
      (h : ∀ t u, t.terminal = u.terminal → Alike limit limit' (x.facing t u) (f t) (g u)) :
      Alike limit limit' x (current >>= f) (current >>= g)
  /-- Tokens are looked at before they are read. -/
  | read {α : Type} {x : Setting} {t u : Token} {f g : Token → Rule α}
      (hx : x.ahead = some (t, u)) (hend : t.kind ≠ .endOfInput)
      (h : Alike limit limit' x.behind (f t) (g u)) :
      Alike limit limit' x (advance >>= f) (advance >>= g)
  /-- Reading the end of input leads nowhere, so it does not count as something read. -/
  | readEnd {α : Type} {x : Setting} {t u : Token} {f g : Token → Rule α}
      (hx : x.ahead = some (t, u)) (hend : t.kind = .endOfInput)
      (h : Alike limit limit' x.onward (f t) (g u)) :
      Alike limit limit' x (advance >>= f) (advance >>= g)
  | unexpected {α : Type} {x : Setting} (context : Context) (expected : Expectation) :
      Alike limit limit' x (unexpected context expected : Rule α) (unexpected context expected)
  /-- The literal that is out of range is read first. -/
  | outOfRange {α : Type} {x : Setting} {t u : Token} (hx : x.ahead = some (t, u))
      (hkind : t.kind = .literal) (hvalue : literalValue? t.text = none) :
      Alike limit limit' x (advance >>= fun _ ↦ (fail (.literalOutOfRange t) : Rule α))
        (advance >>= fun _ ↦ fail (.literalOutOfRange u))
  /-- What is reported may name the token ahead. -/
  | report {x : Setting} {e e' : Event}
      (h : (∀ t u, x.ahead = some (t, u) → t = u) → e = e') :
      Alike limit limit' x (report e) (report e')
  | many {α : Type} {x : Setting} {next next' : Token → Option (Rule α)} (hnext : Progressive next)
      (hnext' : Progressive next')
      (hnone : ∀ t u, t.terminal = u.terminal → (next t = none ↔ next' u = none))
      (hsome : ∀ t u p q, t.terminal = u.terminal → next t = some p → next' u = some q →
        Alike limit limit' (x.facing t u) p q) :
      Alike limit limit' x (many next) (many next')
  /-- No level is opened directly inside another one. -/
  | nested {α : Type} {x : Setting} {p q : Rule α} (hx : x.fresh = false) (hlt : x.depth < limit)
      (h : Alike limit limit' x.inside p q) :
      Alike limit limit' x (nested x.depth p) (nested x.depth q)
  | tooDeep {α : Type} {x : Setting} (hx : x.fresh = false) (hlimit : x.depth = limit)
      (hlimit' : x.depth = limit') :
      Alike limit limit' x (tooDeep x.depth : Rule α) (tooDeep x.depth)
  /-- A level beyond the smaller limit. -/
  | cut {α : Type} {x : Setting} (hx : x.fresh = false) (hlimit : x.depth = limit)
      (hlt : limit < limit') (q : Rule α) :
      Alike limit limit' x (tooDeep x.depth) (nested x.depth q)

variable {limit limit' : Nat} {x : Setting} {t u : Token}

namespace Alike

private theorem ite {c c' : Prop} [Decidable c] [Decidable c'] {p p' q q' : Rule α} (hc : c ↔ c')
    (hp : c → Alike limit limit' x p p') (hq : ¬ c → Alike limit limit' x q q') :
    Alike limit limit' x (if c then p else q) (if c' then p' else q') := by
  by_cases h : c
  · rw [if_pos h, if_pos (hc.mp h)]
    exact hp h
  · rw [if_neg h, if_neg (mt hc.mpr h)]
    exact hq h

end Alike

/-! ## Looking ahead -/

/-- Looking at the current token leaves no trace. -/
theorem current_bind_apply (f : Token → Rule α) (s : Stream) :
    (current >>= f) s = f s.current s := by
  rw [bind_apply_ok (show current s = ⟨.ok s.current, s, []⟩ from rfl)]
  rfl

section

variable {next next' : Token → Option (Rule α)} {p : Rule α} {fuel : List Token} {s : Stream}

/-- Where nothing is called for, a repetition stops, whatever is left of its bound. -/
theorem rounds_of_none (h : next s.current = none) :
    rounds next fuel s = (pure [] : Rule (List α)) s := by
  cases fuel with
  | nil => rfl
  | cons t fuel => rw [rounds, current_bind_apply, h]

theorem rounds_cons_of_some (h : next s.current = some p) :
    rounds next (t :: fuel) s = (p >>= fun a ↦ (a :: ·) <$> rounds next fuel) s := by
  rw [rounds, current_bind_apply, h]

/-- Where one repetition goes on, so does the other. -/
theorem exists_eq_some_of_none_iff (hnone : next t = none ↔ next' u = none) (h : next t = some p) :
    ∃ q, next' u = some q :=
  Option.ne_none_iff_exists'.mp (hnone.not.mp (by simp [h]))

end

/-! ## Tokens -/

/-- A rule that has failed goes no further. -/
private theorem unexpected_bind (context : Context) (expected : Expectation) (f : α → Rule β) :
    unexpected context expected >>= f = unexpected context expected := rfl

private theorem admits_congr {a : Alternative} (h : t.terminal = u.terminal) :
    a.admits t = a.admits u := by
  obtain ⟨hkind, htext⟩ := Terminal.mk.inj h
  cases a with
  | lexeme kind text =>
    rw [Alternative.admits, Alternative.admits, Token.is, Token.is, hkind, htext]
  | kind kind => rw [Alternative.admits, Alternative.admits, hkind]

private theorem is_congr {kind : TokenKind} {text : String} (h : t.terminal = u.terminal) :
    t.is kind text = true ↔ u.is kind text = true := by
  rw [Token.is_iff, Token.is_iff, h]

private theorem isOperatorIn_congr {ops : List String} (h : t.terminal = u.terminal) :
    t.isOperatorIn ops = true ↔ u.isOperatorIn ops = true := by
  rw [Token.isOperatorIn_iff, Token.isOperatorIn_iff, h]

/-- An expected token is read, unless it is the end of input. -/
private theorem alike_expect_bind {a : Alternative} {context : Context} {f g : Token → Rule α}
    (ha : ∀ t, a.admits t = true → t.kind ≠ .endOfInput)
    (h : ∀ t u, t.terminal = u.terminal → Alike limit limit' x.behind (f t) (g u)) :
    Alike limit limit' x (expect a context >>= f) (expect a context >>= g) := by
  rw [expect, bind_assoc, bind_assoc]
  refine .look fun t u htu ↦ ?_
  by_cases hadmits : a.admits t = true
  · rw [if_pos hadmits, if_pos (admits_congr htu ▸ hadmits)]
    exact .read rfl (ha t hadmits) (h t u htu)
  · rw [if_neg hadmits, if_neg (admits_congr htu ▸ hadmits), unexpected_bind, unexpected_bind]
    exact .unexpected context _

theorem kind_ne_of_admits_lexeme {kind : TokenKind} {text : String} (hkind : kind ≠ .endOfInput) :
    ∀ t, (Alternative.lexeme kind text).admits t = true → t.kind ≠ .endOfInput :=
  fun _ h ↦ (Token.kind_eq (Token.is_iff.mp h)).trans_ne hkind

private theorem alike_expectLexeme_bind {kind : TokenKind} {text : String} {context : Context}
    {f g : Token → Rule α} (hkind : kind ≠ .endOfInput)
    (h : ∀ t u, t.terminal = u.terminal → Alike limit limit' x.behind (f t) (g u)) :
    Alike limit limit' x (expect (.lexeme kind text) context >>= f)
      (expect (.lexeme kind text) context >>= g) :=
  alike_expect_bind (kind_ne_of_admits_lexeme hkind) h

private theorem alike_expectSeparator_bind {text : String} {context : Context}
    {f g : Token → Rule α}
    (h : ∀ t u, t.terminal = u.terminal → Alike limit limit' x.behind (f t) (g u)) :
    Alike limit limit' x (expectSeparator text context >>= f)
      (expectSeparator text context >>= g) :=
  alike_expectLexeme_bind (by decide) h

private theorem alike_expectIdentifier_bind {context : Context} {f g : Token → Rule α}
    (h : ∀ t u, t.terminal = u.terminal → Alike limit limit' x.behind (f t) (g u)) :
    Alike limit limit' x (expect (.kind .identifier) context >>= f)
      (expect (.kind .identifier) context >>= g) :=
  alike_expect_bind (fun _ h ↦ (of_decide_eq_true h).trans_ne (by decide)) h

private theorem alike_operator_bind {f g : Operator → Rule α} (hx : x.ahead = some (t, u))
    (htu : t.terminal = u.terminal) (hend : t.kind ≠ .endOfInput)
    (h : ∀ op, Alike limit limit' x.behind (f op) (g op)) :
    Alike limit limit' x (operator >>= f) (operator >>= g) := by
  have htext : t.text = u.text := congrArg Terminal.text htu
  rw [operator, bind_assoc, bind_assoc]
  refine .read hx hend ?_
  rw [pure_bind, pure_bind, htext]
  exact h ⟨u.text⟩

/-! ## Expressions -/

section

variable {p q g g' : Rule Expression} {ops : List String} {d : Nat}

/-- Rules that are alike wherever something has been read since a level was opened. -/
def Steady (limit limit' d : Nat) (p q : Rule α) : Prop :=
  ∀ ahead, Alike limit limit' ⟨d, false, ahead⟩ p q

theorem kind_ne_of_isOperatorIn (h : t.isOperatorIn ops = true) : t.kind ≠ .endOfInput := by
  obtain ⟨op, -, hterminal⟩ := Token.isOperatorIn_iff.mp h
  exact (Token.kind_eq hterminal).trans_ne (by simp)

private theorem steady_operandItems (hp : Steady limit limit' d p q) (hadv : Advances p)
    (hadv' : Advances q) :
    Steady limit limit' d (many (operandItem ops p)) (many (operandItem ops q)) := by
  refine fun ahead ↦ .many (progressive_operandItem hadv) (progressive_operandItem hadv') ?_ ?_
  · intro t u htu
    rw [operandItem_eq_none_iff, operandItem_eq_none_iff, ← Bool.not_eq_true, ← Bool.not_eq_true,
      isOperatorIn_congr htu]
  · intro t u item item' htu hitem hitem'
    obtain ⟨ht, rfl⟩ := eq_of_operandItem_eq_some hitem
    obtain ⟨-, rfl⟩ := eq_of_operandItem_eq_some hitem'
    refine alike_operator_bind rfl htu (kind_ne_of_isOperatorIn ht) fun op ↦ ?_
    exact .bind (hp none) fun right ↦ .pure _

private theorem steady_leftAssociative (hp : Steady limit limit' d p q) (hadv : Advances p)
    (hadv' : Advances q) :
    Steady limit limit' d (leftAssociative ops p) (leftAssociative ops q) :=
  fun ahead ↦ .bind (.bind (hp ahead) fun _ ↦
    .bind (steady_operandItems hp hadv hadv' none) fun _ ↦ .pure _) fun _ ↦ .pure _

private theorem steady_nonAssociative (hp : Steady limit limit' d p q) :
    Steady limit limit' d (nonAssociative ops p) (nonAssociative ops q) := by
  refine fun ahead ↦ .bind (hp ahead) fun left ↦ .look fun t u htu ↦ ?_
  refine .ite (isOperatorIn_congr htu) (fun h ↦ ?_) fun _ ↦ .pure left
  exact alike_operator_bind rfl htu (kind_ne_of_isOperatorIn h) fun op ↦
    .bind (hp none) fun right ↦ .pure _

/-- Rules for a parenthesised factor that are alike in front of one. -/
def SteadyGroup (limit limit' d : Nat) (g g' : Rule Expression) : Prop :=
  ∀ t u, t.terminal = .separator "(" → Alike limit limit' ⟨d, false, some (t, u)⟩ g g'

private theorem steady_factor (hg : SteadyGroup limit limit' d g g') :
    Steady limit limit' d (factor g) (factor g') := by
  refine fun ahead ↦ .look fun t u htu ↦ ?_
  obtain ⟨hkind, htext⟩ := Terminal.mk.inj htu
  refine .ite (by rw [hkind]) (fun h ↦ ?_) fun _ ↦ .ite (by rw [hkind]) (fun h ↦ ?_) fun _ ↦
    .ite (is_congr htu) (fun h ↦ ?_) fun _ ↦ .ite (is_congr htu) (fun h ↦ ?_) fun _ ↦
      .ite (is_congr htu) (fun h ↦ ?_) fun _ ↦ .unexpected _ _
  · rw [htext]
    exact .read rfl (h.trans_ne (by decide)) (.pure _)
  · rw [← htext]
    cases hvalue : literalValue? t.text with
    | some n => exact .read rfl (h.trans_ne (by decide)) (.pure _)
    | none => exact .outOfRange rfl h hvalue
  · exact .read rfl ((Token.kind_eq (Token.is_iff.mp h)).trans_ne (by decide)) (.pure _)
  · exact .read rfl ((Token.kind_eq (Token.is_iff.mp h)).trans_ne (by decide)) (.pure _)
  · exact hg t u (Token.is_iff.mp h)

private theorem steady_negation (hg : SteadyGroup limit limit' d g g') :
    Steady limit limit' d (negation g) (negation g') := by
  refine fun ahead ↦ .look fun t u htu ↦ ?_
  refine .ite (isOperatorIn_congr htu) (fun h ↦ ?_) fun _ ↦ steady_factor hg _
  exact alike_operator_bind rfl htu (kind_ne_of_isOperatorIn h) fun op ↦
    .bind (steady_factor hg none) fun _ ↦ .pure _

theorem steady_level (hg : SteadyGroup limit limit' d g g') (hadv : Advances g)
    (hadv' : Advances g') (l : Grammar.Level) :
    Steady limit limit' d (level l g) (level l g') := by
  have hnegation : Steady limit limit' d (negation g) (negation g') := steady_negation hg
  have hterm : Steady limit limit' d (term g) (term g') :=
    steady_leftAssociative hnegation (advances_negation hadv) (advances_negation hadv')
  have haddition : Steady limit limit' d (addition g) (addition g') :=
    steady_leftAssociative hterm (advances_level hadv .term) (advances_level hadv' .term)
  have hrelation : Steady limit limit' d (relation g) (relation g') :=
    steady_nonAssociative haddition
  have hconjunction : Steady limit limit' d (conjunction g) (conjunction g') :=
    steady_leftAssociative hrelation (advances_level hadv .relation)
      (advances_level hadv' .relation)
  cases l with
  | disjunction =>
    exact steady_leftAssociative hconjunction (advances_level hadv .conjunction)
      (advances_level hadv' .conjunction)
  | conjunction => exact hconjunction
  | relation => exact hrelation
  | addition => exact haddition
  | term => exact hterm
  | negation => exact hnegation
  | factor => exact steady_factor hg

/-- Parenthesised factors under two limits, where the same levels are open. -/
theorem steadyGroup_group (hle : limit ≤ limit') {room room' : Nat} (hroom : d + room = limit)
    (hroom' : d + room' = limit') : SteadyGroup limit limit' d (group d room) (group d room') := by
  induction room generalizing d room' with
  | zero =>
    intro t u _
    cases room' with
    | zero => exact .tooDeep rfl hroom hroom'
    | succ room' => exact .cut rfl hroom (by omega) _
  | succ room ih =>
    obtain ⟨room', rfl⟩ : ∃ r, room' = r + 1 := ⟨room' - 1, by omega⟩
    intro t u ht
    refine .nested (x := ⟨d, false, some (t, u)⟩) rfl (by simp only; omega) ?_
    refine .read rfl ((Token.kind_eq ht).trans_ne (by decide)) ?_
    rw [expression_eq, expression_eq]
    exact .bind (steady_level (ih (d := d + 1) (by omega) (by omega)) (advances_group _ _)
      (advances_group _ _) .disjunction none) fun e ↦
        alike_expectSeparator_bind fun _ _ _ ↦ .pure e

/-- Expressions under two limits, where the same levels are open. -/
theorem steady_expression (hle : limit ≤ limit') {room room' : Nat} (hroom : d + room = limit)
    (hroom' : d + room' = limit') :
    Steady limit limit' d (expression d room) (expression d room') := by
  rw [expression_eq, expression_eq]
  exact steady_level (steadyGroup_group hle hroom hroom') (advances_group _ _)
    (advances_group _ _) .disjunction

end

/-! ## Statements -/

section

variable {ex ex' : Rule Expression} {st st' : Rule Statement} {d : Nat}

private theorem alike_guarded_bind {word : String} {context : Context} {f g : Expression → Rule α}
    (hex : Steady limit limit' x.depth ex ex') (h : ∀ e, Alike limit limit' x.behind (f e) (g e)) :
    Alike limit limit' x (guarded word context ex >>= f) (guarded word context ex' >>= g) := by
  simp only [guarded, bind_assoc, pure_bind]
  refine alike_expectLexeme_bind (by decide) fun _ _ _ ↦
    alike_expectSeparator_bind fun _ _ _ ↦ .bind (hex none) fun e ↦
      alike_expectSeparator_bind fun _ _ _ ↦ h e

private theorem memberItem_congr (h : t.terminal = u.terminal) :
    memberItem st t = none ↔ memberItem st' u = none := by
  rw [memberItem_eq_none_iff, memberItem_eq_none_iff, h, (Terminal.mk.inj h).1]

private theorem steady_statements (hst : Steady limit limit' d st st')
    (hprogress : Progressive (memberItem st)) (hprogress' : Progressive (memberItem st')) :
    Steady limit limit' d (statements st) (statements st') := by
  refine fun ahead ↦ .many hprogress hprogress' (fun t u htu ↦ memberItem_congr htu) ?_
  intro t u p q _ hp hq
  rw [eq_of_memberItem_eq_some hp, eq_of_memberItem_eq_some hq]
  exact hst _

/-- Every form of statement starts with a token that is read. -/
private theorem alike_anyStatement (hex : Steady limit limit' x.depth ex ex')
    (hst : Steady limit limit' x.depth st st') (hprogress : Progressive (memberItem st))
    (hprogress' : Progressive (memberItem st')) :
    Alike limit limit' x (anyStatement ex st) (anyStatement ex' st') := by
  refine .look fun t u htu ↦ ?_
  refine .ite (is_congr htu) (fun h ↦ ?_) fun _ ↦ .ite (is_congr htu) (fun _ ↦ ?_) fun _ ↦
    .ite (is_congr htu) (fun _ ↦ ?_) fun _ ↦ .ite (is_congr htu) (fun _ ↦ ?_) fun _ ↦
      .ite (by rw [(Terminal.mk.inj htu).1]) (fun _ ↦ ?_) fun _ ↦ .unexpected _ _
  · exact .read rfl ((Token.kind_eq (Token.is_iff.mp h)).trans_ne (by decide)) (.pure _)
  · exact alike_expectSeparator_bind fun _ _ _ ↦
      .bind (steady_statements hst hprogress hprogress' none) fun _ ↦
        alike_expectSeparator_bind fun _ _ _ ↦ .pure _
  · refine alike_guarded_bind hex fun b ↦ .bind (hst none) fun r ↦ .look fun t u htu ↦ ?_
    refine .ite (is_congr htu) (fun h ↦ ?_) fun _ ↦ .pure _
    exact .read rfl ((Token.kind_eq (Token.is_iff.mp h)).trans_ne (by decide))
      (.bind (hst none) fun _ ↦ .pure _)
  · exact alike_guarded_bind hex fun b ↦ .bind (hst none) fun r ↦ .pure _
  · refine alike_expectIdentifier_bind fun v w hvw ↦ ?_
    refine alike_expectLexeme_bind (by decide) fun _ _ _ ↦ .bind (hex none) fun e ↦
      alike_expectSeparator_bind fun _ _ _ ↦ ?_
    rw [(Terminal.mk.inj hvw).2]
    exact .pure _

/-- Statements under two limits, where the same levels are open. -/
theorem steady_statement (hle : limit ≤ limit') {room room' : Nat} (hroom : d + room = limit)
    (hroom' : d + room' = limit') :
    Steady limit limit' d (statement d room) (statement d room') := by
  induction room generalizing d room' with
  | zero =>
    intro ahead
    cases room' with
    | zero => exact .tooDeep (x := ⟨d, false, ahead⟩) rfl hroom hroom'
    | succ room' => exact .cut (x := ⟨d, false, ahead⟩) rfl hroom (by omega) _
  | succ room ih =>
    obtain ⟨room', rfl⟩ : ∃ r, room' = r + 1 := ⟨room' - 1, by omega⟩
    refine fun ahead ↦ .nested (x := ⟨d, false, ahead⟩) rfl (by simp only; omega)
      (.look fun t u htu ↦ ?_)
    refine .bind (.report fun h ↦ by rw [h t u rfl]) fun _ ↦ ?_
    have hex : Steady limit limit' (d + 1) (expression (d + 1) room) (expression (d + 1) room') :=
      steady_expression hle (by omega) (by omega)
    exact alike_anyStatement hex (ih (d := d + 1) (by omega) (by omega))
      (progressive_memberItem _ _) (progressive_memberItem _ _)

end

/-! ## Programs -/

section

variable {ty : VarType}

private theorem alike_declaredName : Alike limit limit' x (declaredName ty) (declaredName ty) := by
  refine alike_expectIdentifier_bind fun t u htu ↦ ?_
  rw [(Terminal.mk.inj htu).2]
  exact .bind (.report fun _ ↦ rfl) fun _ ↦ .pure _

private theorem nameItem_congr (h : t.terminal = u.terminal) :
    nameItem ty t = none ↔ nameItem ty u = none := by
  rw [nameItem_eq_none_iff, nameItem_eq_none_iff, h]

private theorem alike_nameItems :
    Alike limit limit' x (many (nameItem ty)) (many (nameItem ty)) := by
  refine .many progressive_nameItem progressive_nameItem (fun t u htu ↦ nameItem_congr htu) ?_
  intro t u p q htu hp hq
  obtain ⟨hcomma, rfl⟩ := eq_of_nameItem_eq_some hp
  obtain ⟨-, rfl⟩ := eq_of_nameItem_eq_some hq
  exact .read rfl ((Token.kind_eq hcomma).trans_ne (by decide)) alike_declaredName

private theorem alike_declaredNames : Alike limit limit' x (declaredNames ty) (declaredNames ty) :=
  .bind alike_declaredName fun _ ↦ .bind alike_nameItems fun _ ↦
    alike_expectSeparator_bind fun _ _ _ ↦ .pure _

private theorem typeOf?_congr (h : t.terminal = u.terminal) : typeOf? t = typeOf? u := by
  obtain ⟨hkind, htext⟩ := Terminal.mk.inj h
  rw [typeOf?, typeOf?, hkind, htext]

private theorem alike_typeItems : Alike limit limit' x (many typeItem) (many typeItem) := by
  refine .many progressive_typeItem progressive_typeItem ?_ ?_
  · intro t u htu
    rw [typeItem, typeItem, typeOf?_congr htu]
  · intro t u p q htu hp hq
    obtain ⟨ty, hty, rfl⟩ := Option.map_eq_some_iff.mp hp
    rw [typeItem, ← typeOf?_congr htu, hty, Option.map_some, Option.some.injEq] at hq
    subst hq
    exact .read rfl ((Token.kind_eq (typeOf?_eq_some_iff.mp hty)).trans_ne (by simp))
      alike_declaredNames

private theorem alike_declarations : Alike limit limit' x declarations declarations :=
  .bind alike_typeItems fun _ ↦ .pure _

/-- Programs under two limits, where the same levels are open. A program starts with a token that is
read. -/
theorem alike_programFrom (hle : limit ≤ limit') {room room' : Nat} (hroom : x.depth + room = limit)
    (hroom' : x.depth + room' = limit') :
    Alike limit limit' x (programFrom x.depth room) (programFrom x.depth room') := by
  refine .bind (.report fun _ ↦ rfl) fun _ ↦ alike_expectLexeme_bind (by decide) fun _ _ _ ↦
    alike_expectSeparator_bind fun _ _ _ ↦ .bind alike_declarations fun ds ↦ ?_
  refine .bind (steady_statements (steady_statement hle hroom hroom')
    (progressive_memberItem _ _) (progressive_memberItem _ _) none) fun ms ↦
      alike_expectSeparator_bind fun _ _ _ ↦ ?_
  -- The end of input is read last, and nothing is read behind it.
  rw [expect, bind_assoc]
  refine .look fun t u htu ↦ ?_
  by_cases h : (Alternative.kind .endOfInput).admits t = true
  · rw [if_pos h, if_pos (admits_congr htu ▸ h)]
    exact .readEnd rfl (of_decide_eq_true h) (.bind (.report fun _ ↦ rfl) fun _ ↦ .pure _)
  · rw [if_neg h, if_neg (admits_congr htu ▸ h)]
    exact .unexpected _ _

end

end Kay.Rule
