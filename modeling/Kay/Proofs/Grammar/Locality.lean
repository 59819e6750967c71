import Kay.Proofs.Grammar.Account

/-!
# A run depends on what it has seen

A rule looks one token ahead and no further. So a run on a second stream that has the same
terminals, as far as the first run went and looked, goes as far, and comes to the same value or to
the same error about its own token (`Alike.mirrors`). What stands behind, and where the tokens
stand, does not matter.

How far a run looked is a property of its outcome (`seen`): up to the token ahead of it where it
stopped. A literal that is out of range is the exception, since it has been read when the run stops
at it.

A repetition is bounded by the length of its stream, and the two streams need not have the same
length. It is therefore followed item by item, with both bounds large enough.
-/

namespace Kay

/-! ## Errors about other tokens -/

/-- The same error about another token. -/
def SyntaxError.movedTo : SyntaxError → Token → SyntaxError
  | unexpectedToken context expected _, t => unexpectedToken context expected t
  | literalOutOfRange _, t => literalOutOfRange t
  | nestingTooDeep limit _, t => nestingTooDeep limit t

@[simp] theorem SyntaxError.token_movedTo (e : SyntaxError) (t : Token) :
    (e.movedTo t).token = t := by
  cases e <;> rfl

namespace Rule

variable {α β : Type} {limit : Nat} {x : Setting} {s u : Stream}

/-- `SameResult r r'`: both results are the same value, or the same error, each about a token of its
own. -/
inductive SameResult : Except SyntaxError α → Except SyntaxError α → Prop
  | ok (a : α) : SameResult (.ok a) (.ok a)
  | error (e : SyntaxError) (t : Token) : SameResult (.error e) (.error (e.movedTo t))

theorem SameResult.eq_ok {r : Except SyntaxError α} {a : α} (h : SameResult (.ok a) r) :
    r = .ok a := by
  cases h
  rfl

theorem SameResult.eq_error {r : Except SyntaxError α} {e : SyntaxError}
    (h : SameResult (.error e) r) : ∃ t, r = .error (e.movedTo t) := by
  cases h with
  | error _ t => exact ⟨t, rfl⟩

/-! ## What a run has seen -/

/-- Whether two streams have the same first terminals, as many as the given number. -/
def Agree (n : Nat) (s u : Stream) : Prop :=
  ∀ i < n, (s.drop i).current.terminal = (u.drop i).current.terminal

theorem Agree.mono {m n : Nat} (h : Agree n s u) (hle : m ≤ n) : Agree m s u :=
  fun i hi ↦ h i (hi.trans_le hle)

theorem Agree.current {n : Nat} (h : Agree n s u) (hn : 0 < n) :
    s.current.terminal = u.current.terminal :=
  h 0 hn

theorem Agree.drop {m n : Nat} (h : Agree (m + n) s u) : Agree n (s.drop m) (u.drop m) := by
  intro i hi
  rw [Stream.drop_drop, Stream.drop_drop]
  exact h (m + i) (Nat.add_lt_add_left hi m)

/-- The number of tokens that a run has seen: those that it has read, and the one ahead of it where
it stopped, unless it stopped at a literal, which is the last one that it has read. -/
def seen (o : Outcome α) : Nat :=
  match o.result with
  | .error (.literalOutOfRange _) => o.reads.length
  | _ => o.reads.length + 1

theorem seen_le (o : Outcome α) : seen o ≤ o.reads.length + 1 := by
  rw [seen]
  split <;> omega

/-- What goes before a run adds the tokens that it reads. -/
private theorem seen_append (r : Except SyntaxError α) (rest rest' : Stream)
    (log log' : List Mark) :
    seen ⟨r, rest, log ++ log'⟩ = (log.filterMap Mark.read?).length + seen ⟨r, rest', log'⟩ := by
  have hreads : (Outcome.mk r rest (log ++ log')).reads.length =
      (log.filterMap Mark.read?).length + (Outcome.mk r rest' log').reads.length := by
    rw [Outcome.reads, List.filterMap_append, List.length_append, Outcome.reads]
  rw [seen, seen]
  dsimp only
  split
  · exact hreads
  · rw [hreads, Nat.add_assoc]

private theorem seen_error (e : SyntaxError) (rest : Stream) (log : List Mark) :
    seen (⟨.error e, rest, log⟩ : Outcome α) = seen (⟨.error e, rest, log⟩ : Outcome β) := by
  cases e <;> rfl

/-- A run has seen the token that its error is about, and none behind it. -/
theorem Accounted.token_eq {o : Outcome α} {e : SyntaxError} (h : Accounted limit x s o)
    (he : o.result = .error e) : ∃ i, seen o = i + 1 ∧ (s.drop i).current = e.token := by
  have hrest := h.replays.rest_eq
  have hreads := h.replays.reads_eq
  have hexplains := h.explains e he
  rw [← Outcome.reads] at hrest hreads
  rw [seen, he]
  cases e with
  | unexpectedToken => exact ⟨_, rfl, hrest ▸ hexplains⟩
  | nestingTooDeep => exact ⟨_, rfl, hrest ▸ hexplains.2⟩
  | literalOutOfRange literal =>
    have hlast := hexplains.1
    rw [hreads] at hlast
    cases hlength : o.reads.length with
    | zero => exact absurd hlast (by simp [hlength])
    | succ i =>
      rw [hlength, List.range_succ, List.map_append, List.map_singleton,
        List.getLast?_concat] at hlast
      exact ⟨i, rfl, Option.some.inj hlast⟩

private theorem Accounted.seen_pos {o : Outcome α} (h : Accounted limit x s o) : 0 < seen o := by
  cases hresult : o.result with
  | error e =>
    obtain ⟨i, hi, -⟩ := h.token_eq hresult
    omega
  | ok a =>
    rw [seen, hresult]
    exact Nat.succ_pos _

/-! ## Two runs -/

/-- Whether a second run, on `u`, goes as far as a first one and has the same result. -/
structure Mirrors (u : Stream) (o o' : Outcome α) : Prop where
  rest_eq : o'.rest = u.drop o.reads.length
  length_reads : o'.reads.length = o.reads.length
  same : SameResult o.result o'.result

theorem Mirrors.result_eq {o o' : Outcome α} (h : Mirrors u o o') :
    o'.result.toOption = o.result.toOption := by
  obtain ⟨-, -, hsame⟩ := h
  generalize o.result = r, o'.result = r' at hsame
  cases hsame <;> rfl

private theorem mirrors_of_ok {a : α} {rest : Stream} {log log' : List Mark}
    (h : log.filterMap Mark.read? = []) (h' : log'.filterMap Mark.read? = []) :
    Mirrors u ⟨.ok a, rest, log⟩ ⟨.ok a, u, log'⟩ where
  rest_eq := by rw [Outcome.reads, h, List.length_nil, Stream.drop_zero]
  length_reads := by rw [Outcome.reads, Outcome.reads, h, h']
  same := .ok a

private theorem mirrors_of_error (e : SyntaxError) (t : Token) {rest : Stream} :
    Mirrors u (⟨.error e, rest, []⟩ : Outcome α) ⟨.error (e.movedTo t), u, []⟩ where
  rest_eq := (Stream.drop_zero u).symm
  length_reads := rfl
  same := .error e t

/-- A sequence whose first part reads a value. -/
theorem bind_eq_of_yields {p : Rule α} {f : α → Rule β} {a : α} {s' : Stream}
    (h : Yields p s a s') :
    (p >>= f) s = ⟨(f a s').result, (f a s').rest, (p s).log ++ (f a s').log⟩ := by
  obtain ⟨hresult, rfl⟩ := h
  rcases hp : p s with ⟨_ | b, rest, log⟩
  · exact absurd hresult (by simp [hp])
  · rw [hp, Except.ok.injEq] at hresult
    rw [bind_apply_ok hp, hresult]

/-- A sequence whose first part fails. -/
theorem bind_eq_of_error {p : Rule α} {f : α → Rule β} {e : SyntaxError}
    (h : (p s).result = .error e) : (p >>= f) s = ⟨.error e, (p s).rest, (p s).log⟩ := by
  rcases hp : p s with ⟨e' | b, rest, log⟩
  · rw [hp, Except.error.injEq] at h
    rw [bind_apply_error hp, h]
  · exact absurd h (by simp [hp])

/-- What goes before both runs, if it reads equally much, changes nothing. -/
private theorem Mirrors.prepend {o o' : Outcome α} {log log' : List Mark}
    (hlog : (log'.filterMap Mark.read?).length = (log.filterMap Mark.read?).length)
    (h : Mirrors (u.drop (log.filterMap Mark.read?).length) o o') :
    Mirrors u ⟨o.result, o.rest, log ++ o.log⟩ ⟨o'.result, o'.rest, log' ++ o'.log⟩ where
  rest_eq := by
    rw [h.rest_eq, Stream.drop_drop, Outcome.reads, Outcome.reads, List.filterMap_append,
      List.length_append]
  length_reads := by
    have := h.length_reads
    rw [Outcome.reads, Outcome.reads] at this ⊢
    rw [List.filterMap_append, List.filterMap_append, List.length_append, List.length_append, hlog,
      this]
  same := h.same

private theorem mirrors_bind {p q : Rule α} {f g : α → Rule β}
    (hrest : (p s).rest = s.drop (p s).reads.length) (hpos : ∀ a s', 0 < seen (f a s'))
    (hp : Agree (seen (p s)) s u → Mirrors u (p s) (q u))
    (hf : ∀ a s' u', Yields p s a s' → Yields q u a u' → Agree (seen (f a s')) s' u' →
      Mirrors u' (f a s') (g a u'))
    (h : Agree (seen ((p >>= f) s)) s u) : Mirrors u ((p >>= f) s) ((q >>= g) u) := by
  cases hresult : (p s).result with
  | error e =>
    have hseen : seen ((p >>= f) s) = seen (p s) := by
      rw [bind_eq_of_error hresult, seen_error (β := α), ← hresult]
    have hmirrors := hp (hseen ▸ h)
    obtain ⟨t, hqu⟩ := (hresult ▸ hmirrors.same).eq_error
    rw [bind_eq_of_error hresult, bind_eq_of_error hqu]
    exact ⟨hmirrors.rest_eq, hmirrors.length_reads, .error e t⟩
  | ok a =>
    have hps : Yields p s a (p s).rest := ⟨hresult, rfl⟩
    rw [bind_eq_of_yields hps] at h ⊢
    rw [seen_append _ _ (f a (p s).rest).rest, ← Outcome.reads] at h
    -- The streams agree as far as both parts look. So the first part ends alike on both, and what
    -- is left of them agrees as far as the second part looks.
    have hfirst : seen (p s) ≤ (p s).reads.length + seen (f a (p s).rest) :=
      (seen_le _).trans (Nat.add_le_add_left (hpos a _) _)
    have hmirrors := hp (h.mono hfirst)
    have hqu : Yields q u a (q u).rest := ⟨(hresult ▸ hmirrors.same).eq_ok, rfl⟩
    have hagree := h.drop
    rw [← hrest, ← hmirrors.rest_eq] at hagree
    have hsecond := hf a _ _ hps hqu hagree
    rw [hmirrors.rest_eq] at hsecond
    rw [bind_eq_of_yields hqu, hmirrors.rest_eq]
    exact hsecond.prepend hmirrors.length_reads

private theorem mirrors_advance_bind {f g : Token → Rule α}
    (hf : Agree (seen (f s.current s.advance)) s.advance u.advance →
      Mirrors u.advance (f s.current s.advance) (g u.current u.advance))
    (h : Agree (seen ((advance >>= f) s)) s u) :
    Mirrors u ((advance >>= f) s) ((advance >>= g) u) := by
  have hlog : ∀ s : Stream, ((advance s).log.filterMap Mark.read?).length = 1 :=
    fun s ↦ congrArg List.length (reads_advance s)
  rw [bind_apply_ok (advance_apply s), seen_append _ _ (f s.current s.advance).rest, hlog] at h
  have hagree := h.drop
  rw [Stream.drop_one, Stream.drop_one] at hagree
  have hmirrors : Mirrors (u.drop ((advance s).log.filterMap Mark.read?).length)
      (f s.current s.advance) (g u.current u.advance) := by
    rw [hlog, Stream.drop_one]
    exact hf hagree
  rw [bind_apply_ok (advance_apply s), bind_apply_ok (advance_apply u)]
  exact hmirrors.prepend ((hlog u).trans (hlog s).symm)

private theorem mirrors_nested {p q : Rule α} {d : Nat}
    (hp : Agree (seen (p s)) s u → Mirrors u (p s) (q u))
    (h : Agree (seen (nested d p s)) s u) : Mirrors u (nested d p s) (nested d q u) := by
  have hseen : seen (nested d p s) = seen (p s) := by
    rw [seen, seen, reads_nested]
    rfl
  have hmirrors := hp (hseen ▸ h)
  refine ⟨?_, ?_, hmirrors.same⟩
  · rw [reads_nested]
    exact hmirrors.rest_eq
  · rw [reads_nested, reads_nested]
    exact hmirrors.length_reads

private theorem seen_map (f : α → β) (p : Rule α) (s : Stream) :
    seen ((f <$> p) s) = seen (p s) := by
  rw [map_apply]
  rcases p s with ⟨e | a, rest, log⟩
  · exact seen_error e rest log
  · rfl

theorem Mirrors.map {p q : Rule α} (h : Mirrors u (p s) (q u)) (f : α → β) :
    Mirrors u ((f <$> p) s) ((f <$> q) u) := by
  refine ⟨h.rest_eq, h.length_reads, ?_⟩
  have hsame := h.same
  rw [map_apply, map_apply]
  generalize (p s).result = r, (q u).result = r' at hsame
  cases hsame with
  | ok a => exact .ok (f a)
  | error e t => exact .error e t

private theorem mirrors_rounds {next next' : Token → Option (Rule α)} (hnext : Progressive next)
    (hnext' : Progressive next')
    (hnone : ∀ t t', t.terminal = t'.terminal → (next t = none ↔ next' t' = none))
    (haccounted : ∀ p s, next s.current = some p → Accounted limit x s (p s))
    (hsome : ∀ p q s u, next s.current = some p → next' u.current = some q →
      s.current.terminal = u.current.terminal → Agree (seen (p s)) s u → Mirrors u (p s) (q u))
    {fuel fuel' : List Token} (hfuel : s.tokens.length ≤ fuel.length)
    (hfuel' : u.tokens.length ≤ fuel'.length) (h : Agree (seen (rounds next fuel s)) s u) :
    Mirrors u (rounds next fuel s) (rounds next' fuel' u) := by
  have hpos : ∀ fuel s, 0 < seen (rounds next fuel s) :=
    fun fuel s ↦ (accounted_rounds haccounted fuel s).seen_pos
  induction fuel generalizing s u fuel' with
  | nil =>
    have hs := hnext.eq_none_of_nil (List.length_eq_zero_iff.mp (Nat.le_zero.mp hfuel))
    rw [rounds_of_none hs, rounds_of_none ((hnone _ _ (h.current (hpos _ _))).mp hs)]
    exact mirrors_of_ok rfl rfl
  | cons t fuel ih =>
    have hcurrent := h.current (hpos _ _)
    cases hp : next s.current with
    | none =>
      rw [rounds_of_none hp, rounds_of_none ((hnone _ _ hcurrent).mp hp)]
      exact mirrors_of_ok rfl rfl
    | some p =>
      obtain ⟨q, hq⟩ := exists_eq_some_of_none_iff (hnone _ _ hcurrent) hp
      cases fuel' with
      | nil =>
        have hu := hnext'.eq_none_of_nil (List.length_eq_zero_iff.mp (Nat.le_zero.mp hfuel'))
        exact absurd (hq.symm.trans hu) (by simp)
      | cons t' fuel' =>
        rw [rounds_cons_of_some hp] at h ⊢
        rw [rounds_cons_of_some hq]
        refine mirrors_bind (haccounted p s hp).replays.rest_eq
          (fun a s' ↦ (seen_map (a :: ·) _ s').symm ▸ hpos fuel s') (hsome p q s u hp hq hcurrent)
          ?_ h
        intro a s' u' hps hqu hagree
        have hs' := hnext.length_lt hp hps
        have hu' := hnext'.length_lt hq hqu
        simp only [List.length_cons] at hfuel hfuel'
        have hle : u'.tokens.length ≤ fuel'.length := by omega
        rw [seen_map] at hagree
        exact (ih (by omega) hle hagree).map _

/-- **A run depends on what it has seen.** On a stream with the same terminals, as far as a run went
and looked, the rule does the same. -/
theorem Alike.mirrors {p q : Rule α} (h : Alike limit limit x p q) (hs : x.Fits s u)
    (hagree : Agree (seen (p s)) s u) : Mirrors u (p s) (q u) := by
  induction h generalizing s u with
  | pure a => exact mirrors_of_ok rfl rfl
  | bind hp hf ihp ihf =>
    exact mirrors_bind (hp.accounted hs).replays.rest_eq
      (fun a s' ↦ ((hf a).accounted (Setting.fits_none (s := s') (u := s'))).seen_pos) (ihp hs)
      (fun a _ _ _ _ ↦ ihf a Setting.fits_none) hagree
  | look h ih =>
    have hpos := (Alike.accounted (.look h) hs).seen_pos
    rw [current_bind_apply] at hagree hpos ⊢
    rw [current_bind_apply]
    exact ih _ _ (hagree.current hpos) Setting.fits_facing hagree
  | @read α x t v f g hx _ _ ih =>
    obtain ⟨rfl, rfl⟩ := hs t v hx
    exact mirrors_advance_bind (ih Setting.fits_none) hagree
  | @readEnd α x t v f g hx _ _ ih =>
    obtain ⟨rfl, rfl⟩ := hs t v hx
    exact mirrors_advance_bind (ih Setting.fits_none) hagree
  | unexpected context expected => exact mirrors_of_error (.unexpectedToken context expected _) _
  | @outOfRange α x t v hx =>
    obtain ⟨rfl, rfl⟩ := hs t v hx
    exact mirrors_advance_bind (fun _ ↦ mirrors_of_error (.literalOutOfRange _) _) hagree
  | report => exact mirrors_of_ok rfl rfl
  | @many α x next next' hnext hnext' hnone halike ih =>
    have haccounted : ∀ p s, next s.current = some p → Accounted limit x s (p s) := by
      intro p s hp
      obtain ⟨q, hq⟩ := exists_eq_some_of_none_iff (hnone s.current s.current rfl) hp
      have h := (halike _ _ p q rfl hp hq).accounted (Setting.fits_facing (u := s))
      exact h.of_ahead rfl rfl
    exact mirrors_rounds hnext hnext' hnone haccounted
      (fun p q s u hp hq hcurrent ↦ ih _ _ p q hcurrent hp hq Setting.fits_facing)
      (Nat.le_refl _) (Nat.le_refl _) hagree
  | nested _ _ _ ih => exact mirrors_nested (ih hs) hagree
  | @tooDeep α x => exact mirrors_of_error (.nestingTooDeep x.depth _) _
  | cut _ _ hlt => exact absurd hlt (Nat.lt_irrefl _)

end Rule

end Kay
