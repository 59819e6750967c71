import Kay.Grammar.Parser
import Kay.Proofs.Grammar.Alike
import Kay.Proofs.Token.Scan

/-!
# The account of a run

What a run says it did is what it did. `Replays` follows an account through a stream: every token
that is said to be read is the current one, every level is opened at the current token with the
right number of others open, and what is closed was open. `Accounted` adds what an error says about
the place where a run stopped.

Both are kept by sequencing, so they hold of every rule that has the same levels open in front and
behind (`Alike.accounted`). With the same rules called again and again it follows that a parser
never loses its place in a source, whatever its calls come to (`Parser.call_after_calls`).
-/

namespace Kay

open Grammar

/-! ## Following an account -/

theorem filterMap_read?_cons (t : Token) (log : List Mark) :
    (Mark.read t :: log).filterMap Mark.read? = t :: log.filterMap Mark.read? := rfl

/-- `Replays d s log d' s'`: with `d` levels open and `s` ahead, the account leads to `d'` levels
and `s'`. -/
inductive Replays : Nat → Stream → List Mark → Nat → Stream → Prop
  | nil {d : Nat} {s : Stream} : Replays d s [] d s
  | event {d d' : Nat} {s s' : Stream} {log : List Mark} (e : Event)
      (h : Replays d s log d' s') : Replays d s (.event e :: log) d' s'
  | read {d d' : Nat} {s s' : Stream} {log : List Mark} (h : Replays d s.advance log d' s') :
      Replays d s (.read s.current :: log) d' s'
  | opened {d d' : Nat} {s s' : Stream} {log : List Mark} (h : Replays (d + 1) s log d' s') :
      Replays d s (.opened d s.current :: log) d' s'
  | closed {d d' : Nat} {s s' : Stream} {log : List Mark} (h : Replays d s log d' s') :
      Replays (d + 1) s (.closed :: log) d' s'

namespace Replays

variable {d d' d'' : Nat} {s s' s'' : Stream} {log log' : List Mark}

theorem append (h : Replays d s log d' s') (h' : Replays d' s' log' d'' s'') :
    Replays d s (log ++ log') d'' s'' := by
  induction h with
  | nil => exact h'
  | event e _ ih => exact .event e (ih h')
  | read _ ih => exact .read (ih h')
  | opened _ ih => exact .opened (ih h')
  | closed _ ih => exact .closed (ih h')

/-- The account in front of an entry leads somewhere from where the rest goes on. -/
theorem of_append (h : Replays d s (log ++ log') d'' s'') :
    ∃ d' s', Replays d s log d' s' ∧ Replays d' s' log' d'' s'' := by
  induction log generalizing d s with
  | nil => exact ⟨d, s, .nil, h⟩
  | cons m log ih =>
    rw [List.cons_append] at h
    cases h with
    | event e h =>
      obtain ⟨d', s', h₁, h₂⟩ := ih h
      exact ⟨d', s', .event e h₁, h₂⟩
    | read h =>
      obtain ⟨d', s', h₁, h₂⟩ := ih h
      exact ⟨d', s', .read h₁, h₂⟩
    | opened h =>
      obtain ⟨d', s', h₁, h₂⟩ := ih h
      exact ⟨d', s', .opened h₁, h₂⟩
    | closed h =>
      obtain ⟨d', s', h₁, h₂⟩ := ih h
      exact ⟨d', s', .closed h₁, h₂⟩

/-- Counting along the account gives the number of open levels. -/
theorem openLevels_eq (h : Replays d s log d' s') : openLevels d log = d' := by
  induction h with
  | nil => rfl
  | event _ _ ih => exact ih
  | read _ ih => exact ih
  | opened _ ih => exact ih
  | closed _ ih => exact ih

/-- The stream is behind by the tokens that were read. -/
theorem rest_eq (h : Replays d s log d' s') : s' = s.drop (log.filterMap Mark.read?).length := by
  induction h with
  | nil => exact (Stream.drop_zero _).symm
  | event _ _ ih => exact ih
  | @read d d' s s' log _ ih =>
    rw [filterMap_read?_cons, List.length_cons, ih, ← Stream.drop_one, Stream.drop_drop,
      Nat.add_comm]
  | opened _ ih => exact ih
  | closed _ ih => exact ih

/-- The tokens that were read are the first ones of the stream, in order. -/
theorem reads_eq (h : Replays d s log d' s') : log.filterMap Mark.read? =
    (List.range (log.filterMap Mark.read?).length).map fun i ↦ (s.drop i).current := by
  induction h with
  | nil => rfl
  | event _ _ ih => exact ih
  | @read d d' s s' log _ ih =>
    rw [filterMap_read?_cons, List.length_cons, List.range_succ_eq_map, List.map_cons, List.map_map]
    refine congrArg (s.current :: ·) (ih.trans (List.map_congr_left fun i _ ↦ ?_))
    rw [Function.comp_apply, Nat.succ_eq_one_add, ← Stream.drop_drop, Stream.drop_one]
  | opened _ ih => exact ih
  | closed _ ih => exact ih

end Replays

namespace Rule

variable {α β : Type} {limit limit' d : Nat} {x : Setting} {s : Stream}

/-! ## What an error says -/

/-- Whether an error is about the place where a run stopped, under a limit on nesting. A literal
that is out of range is the last token that was read, all other errors name the token ahead. -/
def Explains (limit : Nat) (reads : List Token) (rest : Stream) : SyntaxError → Prop
  | .unexpectedToken _ _ found => rest.current = found
  | .nestingTooDeep l opening => l = limit ∧ rest.current = opening
  | .literalOutOfRange literal => reads.getLast? = some literal ∧ literal.kind = .literal ∧
      2147483647 < decimalValue literal.text

theorem Explains.append {reads : List Token} {rest : Stream} {e : SyntaxError}
    (h : Explains limit reads rest e) (before : List Token) :
    Explains limit (before ++ reads) rest e := by
  cases e with
  | unexpectedToken => exact h
  | nestingTooDeep => exact h
  | literalOutOfRange literal =>
    obtain ⟨hlast, hliteral⟩ := h
    exact ⟨by rw [List.getLast?_append, hlast, Option.some_or], hliteral⟩

/-- The number of tokens of the text that a run has read. -/
def tokensRead (o : Outcome α) : Nat := o.reads.countP (·.kind ≠ .endOfInput)

/-- What holds of every run: its account can be followed, an error says where it stopped, and one
level more than the limit allows is met only where a token was read for each level below. -/
structure Accounted (limit : Nat) (x : Setting) (s : Stream) (o : Outcome α) : Prop where
  replays : Replays x.depth s o.log x.depth o.rest
  explains : ∀ e, o.result = .error e → Explains limit o.reads o.rest e
  risen : ∀ l t, o.result = .error (.nestingTooDeep l t) →
    limit + x.fresh.toNat ≤ x.depth + tokensRead o

private theorem literalValue?_eq_none_iff {text : String} :
    literalValue? text = none ↔ 2147483647 < decimalValue text := by
  rw [literalValue?, value_toList, maxLiteral]
  simp

private theorem accounted_of_ok {a : α} {rest : Stream} {log : List Mark}
    (h : Replays x.depth s log x.depth rest) : Accounted limit x s ⟨.ok a, rest, log⟩ :=
  ⟨h, fun _ h ↦ absurd h (by simp), fun _ _ h ↦ absurd h (by simp)⟩

private theorem accounted_pure (a : α) : Accounted limit x s ((pure a : Rule α) s) :=
  accounted_of_ok .nil

private theorem accounted_bind {p : Rule α} {f : α → Rule β} (hp : Accounted limit x s (p s))
    (hf : ∀ a s', Accounted limit x.onward s' (f a s')) : Accounted limit x s ((p >>= f) s) := by
  rcases h : p s with ⟨e | a, rest, log⟩
  · rw [bind_apply_error h]
    rw [h] at hp
    exact ⟨hp.replays, fun e' he ↦ hp.explains e' (by simpa using he),
      fun l t he ↦ hp.risen l t (by simpa using he)⟩
  · rw [bind_apply_ok h]
    rw [h] at hp
    have hrest := hf a rest
    refine ⟨hp.replays.append hrest.replays, fun e he ↦ ?_, fun l t he ↦ ?_⟩
    · have := (hrest.explains e he).append (log.filterMap Mark.read?)
      rwa [Outcome.reads, List.filterMap_append]
    · have := hrest.risen l t he
      simp only [tokensRead, Outcome.reads, List.filterMap_append, List.countP_append] at this ⊢
      omega

private theorem accounted_map {f : α → β} {p : Rule α} (hp : Accounted limit x s (p s)) :
    Accounted limit x s ((f <$> p) s) := by
  rw [← bind_pure_comp]
  exact accounted_bind hp fun _ _ ↦ accounted_pure _

theorem advance_apply (s : Stream) : advance s = ⟨.ok s.current, s.advance, (advance s).log⟩ := rfl

theorem reads_advance (s : Stream) : (advance s).log.filterMap Mark.read? = [s.current] := by
  rw [advance]
  split <;> rfl

private theorem replays_advance : Replays d s (advance s).log d s.advance := by
  rw [advance]
  split
  · exact .read .nil
  · exact .read (.event _ .nil)

/-- The token that is read counts for the level that was opened last. -/
private theorem accounted_advance_bind {f : Token → Rule α} (fresh : Bool)
    (hfresh : x.fresh.toNat ≤ fresh.toNat + if s.current.kind = .endOfInput then 0 else 1)
    (h : Accounted limit ⟨x.depth, fresh, none⟩ s.advance (f s.current s.advance)) :
    Accounted limit x s ((advance >>= f) s) := by
  rw [bind_apply_ok (advance_apply s)]
  refine ⟨replays_advance.append h.replays, fun e he ↦ ?_, fun l t he ↦ ?_⟩
  · rw [Outcome.reads, List.filterMap_append]
    exact (h.explains e he).append _
  · -- The level that was opened last may lack its token, which is the one that is read here.
    have := h.risen l t he
    simp only [tokensRead, Outcome.reads, List.filterMap_append, reads_advance, List.countP_append,
      List.countP_singleton, decide_eq_true_eq, ne_eq, ite_not] at this ⊢
    omega

theorem reads_nested {p : Rule α} (d : Nat) (s : Stream) :
    (nested d p s).reads = (p s).reads := by
  rw [Outcome.reads, nested, List.filterMap_cons_none rfl, List.filterMap_append]
  exact List.append_nil _

private theorem accounted_nested {p : Rule α} (hx : x.fresh = false)
    (h : Accounted limit x.inside s (p s)) : Accounted limit x s (nested x.depth p s) := by
  refine ⟨.opened (h.replays.append (.closed .nil)), fun e he ↦ ?_, fun l t he ↦ ?_⟩
  · rw [reads_nested]
    exact h.explains e he
  · have := h.risen l t he
    rw [tokensRead, reads_nested]
    simp only [hx, Bool.toNat_true, Bool.toNat_false] at this ⊢
    rw [tokensRead] at this
    omega

private theorem accounted_tooDeep (hx : x.fresh = false) (hlimit : x.depth = limit) :
    Accounted limit x s ((tooDeep x.depth : Rule α) s) := by
  refine ⟨.nil, ?_, ?_⟩
  · rintro e ⟨⟩
    exact ⟨hlimit, rfl⟩
  · rintro l t ⟨⟩
    simp [hx, hlimit]

theorem Accounted.of_ahead {o : Outcome α} {y : Setting} (h : Accounted limit y s o)
    (hdepth : y.depth = x.depth) (hfresh : y.fresh = x.fresh) : Accounted limit x s o :=
  ⟨hdepth ▸ h.replays, h.explains, hdepth ▸ hfresh ▸ h.risen⟩

theorem accounted_rounds {next : Token → Option (Rule α)}
    (h : ∀ p s, next s.current = some p → Accounted limit x s (p s)) (fuel : List Token)
    (s : Stream) : Accounted limit x s (rounds next fuel s) := by
  induction fuel generalizing s with
  | nil => exact accounted_pure []
  | cons t fuel ih =>
    cases hp : next s.current with
    | none =>
      rw [rounds_of_none hp]
      exact accounted_pure []
    | some p =>
      rw [rounds_cons_of_some hp]
      exact accounted_bind (h p s hp) fun a s' ↦ (accounted_map (ih s')).of_ahead rfl rfl

/-- Every rule keeps account. -/
theorem Alike.accounted {p q : Rule α} (h : Alike limit limit' x p q) {u : Stream}
    (hs : x.Fits s u) : Accounted limit x s (p s) := by
  induction h generalizing s u with
  | pure a => exact accounted_pure a
  | bind _ _ ihp ihf => exact accounted_bind (ihp hs) fun a s' ↦ ihf a (Setting.fits_none (u := s'))
  | look _ ih =>
    rw [current_bind_apply]
    exact (ih s.current s.current rfl (Setting.fits_facing (u := s))).of_ahead rfl rfl
  | @read α x t v f g hx hend _ ih =>
    obtain ⟨rfl, -⟩ := hs t v hx
    refine accounted_advance_bind false ?_ (ih (Setting.fits_none (u := s)))
    rw [if_neg hend]
    exact Bool.toNat_le _
  | @readEnd α x t v f g hx hend _ ih =>
    obtain ⟨rfl, -⟩ := hs t v hx
    exact accounted_advance_bind x.fresh (Nat.le_add_right _ _) (ih (Setting.fits_none (u := s)))
  | unexpected context expected =>
    refine ⟨.nil, ?_, nofun⟩
    rintro e ⟨⟩
    rfl
  | @outOfRange α x t v hx hkind hvalue =>
    obtain ⟨rfl, -⟩ := hs t v hx
    rw [bind_apply_ok (advance_apply s)]
    refine ⟨replays_advance.append .nil, ?_, nofun⟩
    rintro e ⟨⟩
    refine ⟨?_, hkind, literalValue?_eq_none_iff.mp hvalue⟩
    rw [Outcome.reads, List.filterMap_append, reads_advance]
    rfl
  | report => exact accounted_of_ok (.event _ .nil)
  | @many α x next next' _ _ hnone _ ih =>
    refine accounted_rounds (fun p s hp ↦ ?_) s.tokens s
    obtain ⟨q, hq⟩ := exists_eq_some_of_none_iff (hnone s.current s.current rfl) hp
    exact (ih s.current s.current p q rfl hp hq (Setting.fits_facing (u := s))).of_ahead rfl rfl
  | nested hx _ _ ih => exact accounted_nested hx (ih hs)
  | tooDeep hx hlimit => exact accounted_tooDeep hx hlimit
  | cut hx hlimit => exact accounted_tooDeep hx hlimit

/-- Called without open levels, every rule of a parser keeps account. -/
theorem accounted_call (c : Call) (s : Stream) :
    Accounted maxNesting ⟨0, false, none⟩ s (c.rule 0 s) := by
  have hle := Nat.le_refl maxNesting
  have hroom : 0 + maxNesting = maxNesting := Nat.zero_add _
  cases c with
  | expression =>
    have hsteady := steady_expression hle hroom hroom
    exact accounted_map ((hsteady none).accounted (Setting.fits_none (u := s)))
  | program =>
    have halike := alike_programFrom (x := ⟨0, false, none⟩) hle hroom hroom
    exact accounted_map (halike.accounted (Setting.fits_none (u := s)))

end Rule

/-! ## Parsers -/

/-- The tokens of a source by number, with the end of input for ever behind them. -/
def tokenAt (source : String) (i : Nat) : Token :=
  (Token.scan source).getD i (.endOfInput source.utf8ByteSize)

theorem current_drop_ofSource (source : String) (i : Nat) :
    ((Stream.ofSource source).drop i).current = tokenAt source i := by
  have hstop : (Stream.ofSource source).stop = source.utf8ByteSize := byteLength_toList source
  rw [tokenAt, ← Stream.toList_ofSource, ← hstop, Stream.toList, Stream.current, Stream.drop,
    List.headD_eq_head?_getD, List.head?_drop, List.getD_eq_getElem?_getD, List.getElem?_append]
  split
  · rfl
  · next h =>
    rw [List.getElem?_eq_none (Nat.not_lt.mp h), List.getElem?_singleton]
    split <;> rfl

namespace Parser

/-- Whether a parser has read a part of a source, is about to read the rest, and has closed all
levels. -/
structure Follows (source : String) (p : Parser) : Prop where
  depth_eq : p.depth = 0
  consumed_eq : p.consumed = (List.range p.consumed.length).map (tokenAt source)
  current_eq : ∀ i, (p.stream.drop i).current = tokenAt source (p.consumed.length + i)

variable {source : String} {p : Parser}

theorem follows_start (source : String) : (start source).Follows source where
  depth_eq := rfl
  consumed_eq := rfl
  current_eq i := by rw [start, current_drop_ofSource, List.length_nil, Nat.zero_add]

/-- A call goes on where the parser stands, and leaves no level open. -/
theorem Follows.call (h : p.Follows source) (c : Call) : (p.call c).2.Follows source := by
  obtain ⟨consumed, stream, depth⟩ := p
  obtain rfl : depth = 0 := h.depth_eq
  have hrun := (Rule.accounted_call c stream).replays
  have hconsumed : consumed = (List.range consumed.length).map (tokenAt source) := h.consumed_eq
  have hcurrent : ∀ i, (stream.drop i).current = tokenAt source (consumed.length + i) :=
    h.current_eq
  refine ⟨hrun.openLevels_eq, ?_, fun i ↦ ?_⟩
  · have hreads : (c.rule 0 stream).reads =
        (List.range (c.rule 0 stream).reads.length).map fun i ↦
          tokenAt source (consumed.length + i) :=
      hrun.reads_eq.trans (List.map_congr_left fun i _ ↦ hcurrent i)
    change consumed ++ (c.rule 0 stream).reads = _
    rw [Parser.call, List.length_append, List.range_add, List.map_append, List.map_map, ← hconsumed]
    exact congrArg (consumed ++ ·) hreads
  · change ((c.rule 0 stream).rest.drop i).current = tokenAt source ((consumed ++ _).length + i)
    rw [hrun.rest_eq, Stream.drop_drop, hcurrent, List.length_append, Nat.add_assoc]
    rfl

theorem Follows.after (h : p.Follows source) (calls : List Call) :
    (p.after calls).Follows source := by
  induction calls generalizing p with
  | nil => exact h
  | cons c calls ih => exact ih (h.call c)

/-- **A parser never loses its place.** Whatever was asked of a parser over a source, and whether it
was answered or not: behind every call no level is open; the tokens that were read and the tokens
ahead are those of the source, in order, with the end of input for ever behind them; and an error is
about one of them, the one ahead, or the last one that was read where that is a literal whose value
is out of range. -/
theorem call_after_calls (source : String) (calls : List Call) (c : Call) :
    ∃ result p, ((start source).after calls).call c = (result, p) ∧ p.depth = 0 ∧
      p.consumed = (List.range p.consumed.length).map (tokenAt source) ∧
      (∀ i, (p.stream.drop i).current = tokenAt source (p.consumed.length + i)) ∧
      ∀ e, result = .error e → match e with
        | .unexpectedToken _ _ found => p.stream.current = found
        | .nestingTooDeep limit opening => limit = maxNesting ∧ p.stream.current = opening
        | .literalOutOfRange literal => p.consumed.getLast? = some literal ∧
            literal.kind = .literal ∧ 2147483647 < decimalValue literal.text := by
  have hfollows := (follows_start source).after calls
  have hcall := hfollows.call c
  refine ⟨_, _, rfl, hcall.depth_eq, hcall.consumed_eq, hcall.current_eq, fun e he ↦ ?_⟩
  generalize (start source).after calls = p at hfollows he ⊢
  obtain ⟨consumed, stream, depth⟩ := p
  obtain rfl : depth = 0 := hfollows.depth_eq
  have hexplains := ((Rule.accounted_call c stream).explains e he).append consumed
  cases e with
  | unexpectedToken => exact hexplains
  | nestingTooDeep => exact hexplains
  | literalOutOfRange => exact hexplains

end Parser

end Kay
