import Kay.Grammar.Program
import Kay.Proofs.Token.Terminal

/-!
# What a rule reads

A run of a rule has three results. For the question which texts a rule accepts the account does
not matter, and a failure is just the absence of a value, so rules are studied here through one
relation: `Yields p s a s'` says that `p` reads the value `a` from `s` and leaves `s'`.

Every combinator gets an equivalence, so the same lemmas take a run apart and put one together. A
stretch of tokens in front of a stream is written `s.prepend ts`; what was read is then always a
list, and no position is counted. A repetition becomes the inductive relation `Repeats`
(`yields_many`), which forgets the bound on the number of rounds. It may, since every round
shortens the stream: no rule ever puts a token back (`Advances`).
-/

namespace Kay

/-! ## Tokens by their terminals -/

namespace Token

theorem kind_eq {t : Token} {kind : TokenKind} {text : String} (h : t.terminal = ⟨kind, text⟩) :
    t.kind = kind :=
  congrArg Terminal.kind h

theorem text_eq {t : Token} {kind : TokenKind} {text : String} (h : t.terminal = ⟨kind, text⟩) :
    t.text = text :=
  congrArg Terminal.text h

theorem is_iff {t : Token} {kind : TokenKind} {text : String} :
    t.is kind text = true ↔ t.terminal = ⟨kind, text⟩ := by
  rw [Token.is, Bool.and_eq_true, decide_eq_true_eq, decide_eq_true_eq, terminal,
    Terminal.mk.injEq]

theorem isOperatorIn_iff {t : Token} {ops : List String} :
    t.isOperatorIn ops = true ↔ ∃ op ∈ ops, t.terminal = ⟨.operator, op⟩ := by
  rw [Token.isOperatorIn, Bool.and_eq_true, decide_eq_true_eq, decide_eq_true_eq]
  constructor
  · rintro ⟨hkind, htext⟩
    exact ⟨t.text, htext, Terminal.mk.injEq .. ▸ ⟨hkind, rfl⟩⟩
  · rintro ⟨op, hop, h⟩
    obtain ⟨hkind, rfl⟩ := Terminal.mk.inj h
    exact ⟨hkind, hop⟩

end Token

/-! ## Streams with tokens in front -/

namespace Stream

/-- The stream in which the given tokens come first. -/
def prepend (ts : List Token) (s : Stream) : Stream := { s with tokens := ts ++ s.tokens }

variable (s : Stream) (t : Token) (ts us : List Token)

@[simp] theorem tokens_prepend : (s.prepend ts).tokens = ts ++ s.tokens := rfl

@[simp] theorem prepend_nil : s.prepend [] = s := rfl

@[simp] theorem current_prepend_cons : (s.prepend (t :: ts)).current = t := rfl

@[simp] theorem advance_prepend_cons : (s.prepend (t :: ts)).advance = s.prepend ts := rfl

theorem prepend_append : s.prepend (ts ++ us) = (s.prepend us).prepend ts := by
  simp [prepend]

theorem prepend_cons : s.prepend (t :: ts) = (s.prepend ts).prepend [t] := rfl

/-- A stream that is not at its end starts with its current token. -/
theorem eq_prepend_advance {s : Stream} (h : s.current.kind ≠ .endOfInput) :
    s = s.advance.prepend [s.current] := by
  obtain ⟨tokens, stop⟩ := s
  cases tokens with
  | nil => exact absurd rfl h
  | cons t ts => rfl

theorem eq_prepend_cons {s s' : Stream} {ts : List Token} (hs : s.current.kind ≠ .endOfInput)
    (h : s.advance = s'.prepend ts) : s = s'.prepend (s.current :: ts) := by
  rw [prepend_cons, ← h]
  exact eq_prepend_advance hs

theorem length_advance_lt {s : Stream} (h : s.current.kind ≠ .endOfInput) :
    s.advance.tokens.length < s.tokens.length := by
  have heq := congrArg (fun s : Stream ↦ s.tokens.length) (eq_prepend_advance h)
  simp only [tokens_prepend, List.length_append, List.length_singleton] at heq
  omega

end Stream

namespace Rule

variable {α β : Type}

/-! ## Values that are read -/

/-- `Yields p s a s'`: the rule `p` reads the value `a` from the stream `s` and leaves `s'`. -/
def Yields (p : Rule α) (s : Stream) (a : α) (s' : Stream) : Prop :=
  (p s).result = .ok a ∧ (p s).rest = s'

/-- A rule reads one value at most. -/
theorem Yields.unique {p : Rule α} {s s₁ s₂ : Stream} {a b : α} (h : Yields p s a s₁)
    (h' : Yields p s b s₂) : a = b ∧ s₁ = s₂ := by
  obtain ⟨ha, rfl⟩ := h
  obtain ⟨hb, rfl⟩ := h'
  rw [ha, Except.ok.injEq] at hb
  exact ⟨hb, rfl⟩

variable {s s' : Stream}

@[simp] theorem yields_pure {a b : α} : Yields (pure b) s a s' ↔ a = b ∧ s' = s := by
  rw [Yields, pure_apply, Except.ok.injEq]
  exact ⟨fun h ↦ ⟨h.1.symm, h.2.symm⟩, fun h ↦ ⟨h.1.symm, h.2.symm⟩⟩

/-- A sequence reads what its parts read. -/
theorem yields_bind {p : Rule α} {f : α → Rule β} {b : β} {s'' : Stream} :
    Yields (p >>= f) s b s'' ↔ ∃ a s', Yields p s a s' ∧ Yields (f a) s' b s'' := by
  rcases hp : p s with ⟨_ | a, rest, log⟩
  · rw [Yields, bind_apply_error hp]
    constructor
    · rintro ⟨h, -⟩
      exact absurd h (by simp)
    · rintro ⟨a, s', ⟨h, -⟩, -⟩
      rw [hp] at h
      exact absurd h (by simp)
  · rw [Yields, bind_apply_ok hp]
    constructor
    · intro h
      exact ⟨a, rest, ⟨by rw [hp], by rw [hp]⟩, h⟩
    · rintro ⟨a', s', ⟨ha, hs⟩, h⟩
      rw [hp, Except.ok.injEq] at ha
      rw [hp] at hs
      subst ha hs
      exact h

theorem yields_map {f : α → β} {p : Rule α} {b : β} :
    Yields (f <$> p) s b s' ↔ ∃ a, Yields p s a s' ∧ b = f a := by
  rw [← bind_pure_comp, yields_bind]
  constructor
  · rintro ⟨a, s₁, h, hb⟩
    obtain ⟨rfl, rfl⟩ := yields_pure.mp hb
    exact ⟨a, h, rfl⟩
  · rintro ⟨a, h, rfl⟩
    exact ⟨a, s', h, yields_pure.mpr ⟨rfl, rfl⟩⟩

@[simp] theorem yields_current {t : Token} : Yields current s t s' ↔ t = s.current ∧ s' = s := by
  rw [Yields, current, Except.ok.injEq]
  exact ⟨fun h ↦ ⟨h.1.symm, h.2.symm⟩, fun h ↦ ⟨h.1.symm, h.2.symm⟩⟩

@[simp] theorem yields_advance {t : Token} :
    Yields advance s t s' ↔ t = s.current ∧ s' = s.advance := by
  rw [Yields, advance, Except.ok.injEq]
  exact ⟨fun h ↦ ⟨h.1.symm, h.2.symm⟩, fun h ↦ ⟨h.1.symm, h.2.symm⟩⟩

@[simp] theorem not_yields_fail {e : SyntaxError} {a : α} : ¬ Yields (fail e) s a s' := by
  rintro ⟨h, -⟩
  exact absurd h (by simp [fail])

@[simp] theorem yields_note {m : Mark} {u : Unit} : Yields (note m) s u s' ↔ s' = s := by
  rw [Yields, note]
  exact ⟨fun h ↦ h.2.symm, fun h ↦ ⟨rfl, h.symm⟩⟩

/-- Looking at the current token changes nothing. -/
theorem yields_current_bind {f : Token → Rule β} {b : β} :
    Yields (current >>= f) s b s' ↔ Yields (f s.current) s b s' := by
  rw [yields_bind]
  constructor
  · rintro ⟨t, s₁, h, hf⟩
    obtain ⟨rfl, rfl⟩ := yields_current.mp h
    exact hf
  · exact fun h ↦ ⟨_, s, yields_current.mpr ⟨rfl, rfl⟩, h⟩

theorem yields_advance_bind {f : Token → Rule β} {b : β} :
    Yields (advance >>= f) s b s' ↔ Yields (f s.current) s.advance b s' := by
  rw [yields_bind]
  constructor
  · rintro ⟨t, s₁, h, hf⟩
    obtain ⟨rfl, rfl⟩ := yields_advance.mp h
    exact hf
  · exact fun h ↦ ⟨_, s.advance, yields_advance.mpr ⟨rfl, rfl⟩, h⟩

theorem yields_note_bind {m : Mark} {f : Unit → Rule β} {b : β} :
    Yields (note m >>= f) s b s' ↔ Yields (f ()) s b s' := by
  rw [yields_bind]
  constructor
  · rintro ⟨u, s₁, h, hf⟩
    obtain rfl := yields_note.mp h
    exact hf
  · exact fun h ↦ ⟨(), s, yields_note.mpr rfl, h⟩

theorem yields_report_bind {e : Event} {f : Unit → Rule β} {b : β} :
    Yields (report e >>= f) s b s' ↔ Yields (f ()) s b s' :=
  yields_note_bind

/-- A level around a rule does not change what the rule reads. -/
@[simp] theorem yields_nested {depth : Nat} {p : Rule α} {a : α} :
    Yields (nested depth p) s a s' ↔ Yields p s a s' :=
  Iff.rfl

@[simp] theorem not_yields_unexpected {context : Context} {expected : Expectation} {a : α} :
    ¬ Yields (unexpected context expected) s a s' := by
  rw [unexpected, yields_current_bind]
  exact not_yields_fail

@[simp] theorem not_yields_tooDeep {limit : Nat} {a : α} : ¬ Yields (tooDeep limit) s a s' := by
  rw [tooDeep, yields_current_bind]
  exact not_yields_fail

theorem yields_expect {alternative : Alternative} {context : Context} {t : Token} :
    Yields (expect alternative context) s t s' ↔
      alternative.admits s.current = true ∧ t = s.current ∧ s' = s.advance := by
  rw [expect, yields_current_bind]
  split
  · next h => simp [h]
  · next h => simp [h]

/-- Reading one token with a given text. -/
theorem yields_expect_lexeme {kind : TokenKind} {text : String} {context : Context} {t : Token}
    (hkind : kind ≠ .endOfInput) : Yields (expect (.lexeme kind text) context) s t s' ↔
      t.terminal = ⟨kind, text⟩ ∧ s = s'.prepend [t] := by
  rw [yields_expect, Alternative.admits, Token.is_iff]
  constructor
  · rintro ⟨h, rfl, rfl⟩
    exact ⟨h, Stream.eq_prepend_advance ((Token.kind_eq h).trans_ne hkind)⟩
  · rintro ⟨h, rfl⟩
    exact ⟨h, rfl, rfl⟩

/-- Reading one token of a given kind. -/
theorem yields_expect_kind {kind : TokenKind} {context : Context} {t : Token}
    (hkind : kind ≠ .endOfInput) : Yields (expect (.kind kind) context) s t s' ↔
      t.kind = kind ∧ s = s'.prepend [t] := by
  rw [yields_expect, Alternative.admits, decide_eq_true_eq]
  constructor
  · rintro ⟨rfl, rfl, rfl⟩
    exact ⟨rfl, Stream.eq_prepend_advance hkind⟩
  · rintro ⟨rfl, rfl⟩
    exact ⟨rfl, rfl, rfl⟩

theorem yields_expectSeparator {text : String} {context : Context} {t : Token} :
    Yields (expectSeparator text context) s t s' ↔
      t.terminal = ⟨.separator, text⟩ ∧ s = s'.prepend [t] :=
  yields_expect_lexeme (by decide)

/-! ## Rules move forward -/

/-- Whatever comes of it, a run of the rule leaves an end of the stream it was given. -/
def Advances (p : Rule α) : Prop := ∀ s, ∃ ts, s = (p s).rest.prepend ts

theorem Advances.of_rest_eq {p : Rule α} (h : ∀ s, (p s).rest = s) : Advances p :=
  fun s ↦ ⟨[], by rw [h, Stream.prepend_nil]⟩

theorem advances_pure (a : α) : Advances (pure a : Rule α) := .of_rest_eq fun _ ↦ rfl

theorem advances_current : Advances current := .of_rest_eq fun _ ↦ rfl

theorem advances_fail (e : SyntaxError) : Advances (fail e : Rule α) := .of_rest_eq fun _ ↦ rfl

theorem advances_note (m : Mark) : Advances (note m) := .of_rest_eq fun _ ↦ rfl

theorem advances_advance : Advances advance := by
  intro s
  obtain ⟨tokens, stop⟩ := s
  cases tokens with
  | nil => exact ⟨[], rfl⟩
  | cons t ts => exact ⟨[t], rfl⟩

theorem Advances.bind {p : Rule α} {f : α → Rule β} (hp : Advances p) (hf : ∀ a, Advances (f a)) :
    Advances (p >>= f) := by
  intro s
  obtain ⟨ts, hts⟩ := hp s
  rcases h : p s with ⟨_ | a, rest, log⟩
  · rw [bind_apply_error h]
    exact ⟨ts, by rw [h] at hts; exact hts⟩
  · rw [bind_apply_ok h]
    obtain ⟨us, hus⟩ := hf a rest
    refine ⟨ts ++ us, ?_⟩
    rw [Stream.prepend_append, ← hus]
    rw [h] at hts
    exact hts

theorem Advances.map {f : α → β} {p : Rule α} (hp : Advances p) : Advances (f <$> p) := by
  rw [← bind_pure_comp]
  exact hp.bind fun a ↦ advances_pure (f a)

theorem Advances.ite {c : Prop} [Decidable c] {p q : Rule α} (hp : Advances p)
    (hq : Advances q) : Advances (if c then p else q) := by
  split
  · exact hp
  · exact hq

theorem Advances.nested {depth : Nat} {p : Rule α} (hp : Advances p) : Advances (nested depth p) :=
  hp

theorem advances_unexpected (context : Context) (expected : Expectation) :
    Advances (unexpected context expected : Rule α) :=
  advances_current.bind fun _ ↦ advances_fail _

theorem advances_expect (alternative : Alternative) (context : Context) :
    Advances (expect alternative context) :=
  advances_current.bind fun _ ↦ .ite advances_advance (advances_unexpected context _)

theorem advances_rounds {next : Token → Option (Rule α)} (h : ∀ t p, next t = some p → Advances p)
    (ts : List Token) : Advances (rounds next ts) := by
  induction ts with
  | nil => exact advances_pure []
  | cons t ts ih =>
    refine advances_current.bind fun c ↦ ?_
    split
    · exact advances_pure []
    · next item heq => exact (h c item heq).bind fun a ↦ ih.map

theorem advances_many {next : Token → Option (Rule α)} (h : ∀ t p, next t = some p → Advances p) :
    Advances (many next) :=
  fun s ↦ advances_rounds h s.tokens s

/-- A value is read from the front of a stream. -/
theorem Advances.exists_prepend {p : Rule α} (hp : Advances p) {a : α} (h : Yields p s a s') :
    ∃ ts, s = s'.prepend ts := by
  obtain ⟨-, rfl⟩ := h
  exact hp s

theorem Advances.length_le {p : Rule α} (hp : Advances p) {a : α} (h : Yields p s a s') :
    s'.tokens.length ≤ s.tokens.length := by
  obtain ⟨ts, rfl⟩ := hp.exists_prepend h
  simp

/-! ## Repetitions -/

/-- `Repeats next s as s'`: items are read from `s` for as long as the current token calls for
one; they are `as`, and `s'` is left. -/
inductive Repeats (next : Token → Option (Rule α)) : Stream → List α → Stream → Prop
  | stop {s : Stream} (h : next s.current = none) : Repeats next s [] s
  | step {s s₁ s' : Stream} {p : Rule α} {a : α} {as : List α} (h : next s.current = some p)
      (ha : Yields p s a s₁) (has : Repeats next s₁ as s') : Repeats next s (a :: as) s'

/-- Every item that is read takes a token, and the end of input calls for none. -/
structure Progressive (next : Token → Option (Rule α)) : Prop where
  length_lt : ∀ {s p a s'}, next s.current = some p → Yields p s a s' →
    s'.tokens.length < s.tokens.length
  endOfInput : ∀ n, next (.endOfInput n) = none

theorem Progressive.eq_none_of_nil {next : Token → Option (Rule α)} (hnext : Progressive next)
    (h : s.tokens = []) : next s.current = none := by
  obtain ⟨tokens, stop⟩ := s
  obtain rfl : tokens = [] := h
  exact hnext.endOfInput stop

/-- Rounds that are bounded by a list as long as the stream come to their natural end. -/
theorem yields_rounds {next : Token → Option (Rule α)} (hnext : Progressive next)
    {fuel : List Token} {as : List α} (hfuel : s.tokens.length ≤ fuel.length) :
    Yields (rounds next fuel) s as s' ↔ Repeats next s as s' := by
  induction fuel generalizing s as with
  | nil =>
    have hnone := hnext.eq_none_of_nil (List.length_eq_zero_iff.mp (Nat.le_zero.mp hfuel))
    rw [rounds, yields_pure]
    constructor
    · rintro ⟨rfl, rfl⟩
      exact .stop hnone
    · intro h
      cases h with
      | stop => exact ⟨rfl, rfl⟩
      | step hsome => exact absurd (hnone.symm.trans hsome) (by simp)
  | cons t fuel ih =>
    -- A round takes one element of the bound and at least one token.
    rw [rounds, yields_current_bind]
    split
    · next hnone =>
      rw [yields_pure]
      constructor
      · rintro ⟨rfl, rfl⟩
        exact .stop hnone
      · intro h
        cases h with
        | stop => exact ⟨rfl, rfl⟩
        | step hsome => exact absurd (hnone.symm.trans hsome) (by simp)
    · next item hitem =>
      have hih : ∀ {a s₁ bs}, Yields item s a s₁ →
          (Yields (rounds next fuel) s₁ bs s' ↔ Repeats next s₁ bs s') := by
        intro a s₁ bs ha
        have := hnext.length_lt hitem ha
        exact ih (by simp only [List.length_cons] at hfuel; omega)
      rw [yields_bind]
      constructor
      · rintro ⟨a, s₁, ha, h⟩
        obtain ⟨bs, hbs, rfl⟩ := yields_map.mp h
        exact .step hitem ha ((hih ha).mp hbs)
      · intro h
        cases h with
        | stop hnone => exact absurd (hitem.symm.trans hnone) (by simp)
        | step hsome ha has =>
          rw [hitem, Option.some.injEq] at hsome
          subst hsome
          exact ⟨_, _, ha, yields_map.mpr ⟨_, (hih ha).mpr has, rfl⟩⟩

/-- A repetition reads items until the current token calls for none. -/
theorem yields_many {next : Token → Option (Rule α)} (hnext : Progressive next) {as : List α} :
    Yields (many next) s as s' ↔ Repeats next s as s' :=
  yields_rounds hnext (Nat.le_refl _)

/-- A repetition can be read in one way only. -/
theorem Repeats.unique {next : Token → Option (Rule α)} (hnext : Progressive next)
    {as bs : List α} {s₁ s₂ : Stream} (h : Repeats next s as s₁) (h' : Repeats next s bs s₂) :
    as = bs ∧ s₁ = s₂ :=
  ((yields_many hnext).mpr h).unique ((yields_many hnext).mpr h')

end Rule

end Kay
