import Kay.Proofs.Grammar.Account
import Kay.Proofs.Grammar.Unambiguous

/-!
# What the limit on nesting changes

Two runs over one stream, under a smaller and a greater limit, do the same until the second one
enters a level beyond the smaller limit; there the first one stops (`Alike.cuts`). Under a limit
that is no less than the number of tokens no run is stopped, since a level that is entered costs a
token.

So a limit turns the result of the run without one into an error at the first level that is too
deep, and changes nothing else.
-/

namespace Kay

open Grammar

namespace Rule

variable {α β : Type} {limit limit' : Nat} {x : Setting} {s : Stream}

/-! ## Runs under two limits -/

/-- Whether all levels that an account opens are within a limit. -/
def Within (limit : Nat) (log : List Mark) : Prop := ∀ d t, Mark.opened d t ∈ log → d < limit

theorem Within.mono {log : List Mark} (h : Within limit log) (hle : limit ≤ limit') :
    Within limit' log :=
  fun d t hmem ↦ (h d t hmem).trans_le hle

theorem Within.append {log log' : List Mark} (h : Within limit log) (h' : Within limit log') :
    Within limit (log ++ log') :=
  fun d t hmem ↦ (List.mem_append.mp hmem).elim (h d t) (h' d t)

/-- `Cuts limit o o'`: the run `o` is the run `o'`, or it stops where `o'` enters the first level
beyond the limit. -/
inductive Cuts (limit : Nat) : Outcome α → Outcome α → Prop
  | same {o : Outcome α} (h : Within limit o.log) : Cuts limit o o
  | cut {o o' : Outcome α} {t : Token} {before after : List Mark}
      (hresult : o.result = .error (.nestingTooDeep limit t))
      (hlog : o'.log = before ++ .opened limit t :: after) (hbefore : Within limit before) :
      Cuts limit o o'

private theorem cuts_of_log_eq_nil {o : Outcome α} (h : o.log = []) : Cuts limit o o :=
  .same fun _ _ hmem ↦ absurd hmem (by simp [h])

private theorem Cuts.prepend {o o' : Outcome α} (h : Cuts limit o o') {log : List Mark}
    (hlog : Within limit log) :
    Cuts limit ⟨o.result, o.rest, log ++ o.log⟩ ⟨o'.result, o'.rest, log ++ o'.log⟩ := by
  cases h with
  | same h => exact .same (hlog.append h)
  | @cut _ t before after hresult hlog' hbefore =>
    have happend : log ++ o'.log = (log ++ before) ++ .opened limit t :: after := by
      rw [hlog', List.append_assoc]
    exact .cut hresult happend (hlog.append hbefore)

private theorem exists_log_bind (q : Rule α) (g : α → Rule β) (s : Stream) :
    ∃ more, ((q >>= g) s).log = (q s).log ++ more := by
  rcases hq : q s with ⟨e | a, rest, log⟩
  · exact ⟨[], by rw [bind_apply_error hq, List.append_nil]⟩
  · exact ⟨_, by rw [bind_apply_ok hq]⟩

private theorem cuts_bind {p q : Rule α} {f g : α → Rule β} (hp : Cuts limit (p s) (q s))
    (hf : ∀ a s', Cuts limit (f a s') (g a s')) : Cuts limit ((p >>= f) s) ((q >>= g) s) := by
  rcases h : p s with ⟨e | a, rest, log⟩
  · rw [bind_apply_error h]
    rw [h] at hp
    generalize hq : q s = o' at hp
    cases hp with
    | same hwithin =>
      rw [bind_apply_error hq]
      exact .same hwithin
    | cut hresult hlog hbefore =>
      -- The second run may go on, but the level is in its account already.
      obtain ⟨more, hmore⟩ := exists_log_bind q g s
      obtain rfl := Except.error.inj hresult
      rw [hq, hlog, List.append_assoc] at hmore
      exact .cut rfl hmore hbefore
  · rw [bind_apply_ok h]
    rw [h] at hp
    generalize hq : q s = o' at hp
    cases hp with
    | same hwithin =>
      rw [bind_apply_ok hq]
      exact (hf a rest).prepend hwithin
    | cut hresult => exact absurd hresult (by simp)

private theorem within_advance (s : Stream) : Within limit (advance s).log := by
  intro d t hmem
  rw [advance] at hmem
  split at hmem <;> simp at hmem

private theorem cuts_rounds {next next' : Token → Option (Rule α)}
    (hnone : ∀ t, next t = none ↔ next' t = none)
    (hsome : ∀ p q s, next s.current = some p → next' s.current = some q →
      Cuts limit (p s) (q s)) (fuel : List Token) (s : Stream) :
    Cuts limit (rounds next fuel s) (rounds next' fuel s) := by
  induction fuel generalizing s with
  | nil => exact cuts_of_log_eq_nil rfl
  | cons t fuel ih =>
    cases hp : next s.current with
    | none =>
      rw [rounds_of_none hp, rounds_of_none ((hnone _).mp hp)]
      exact cuts_of_log_eq_nil rfl
    | some p =>
      obtain ⟨q, hq⟩ := exists_eq_some_of_none_iff (hnone s.current) hp
      rw [rounds_cons_of_some hp, rounds_cons_of_some hq]
      refine cuts_bind (hsome p q s hp hq) fun a s' ↦ ?_
      rw [← bind_pure_comp, ← bind_pure_comp]
      exact cuts_bind (ih s') fun _ _ ↦ cuts_of_log_eq_nil rfl

private theorem cuts_nested {p q : Rule α} (hlt : x.depth < limit) (h : Cuts limit (p s) (q s)) :
    Cuts limit (nested x.depth p s) (nested x.depth q s) := by
  have hopened : Within limit [.opened x.depth s.current] := by
    rintro d t hmem
    obtain ⟨rfl, -⟩ := Mark.opened.inj (List.mem_singleton.mp hmem)
    exact hlt
  have hclosed : Within limit [.closed] := fun _ _ hmem ↦ absurd hmem (by simp)
  rw [nested, nested]
  generalize p s = o, q s = o' at h
  cases h with
  | same h => exact .same (hopened.append (h.append hclosed))
  | @cut _ t before after hresult hlog hbefore =>
    have happend : .opened x.depth s.current :: (o'.log ++ [.closed])
        = ([.opened x.depth s.current] ++ before) ++ .opened limit t :: (after ++ [.closed]) := by
      rw [hlog, List.append_assoc, List.append_assoc]
      rfl
    exact .cut hresult happend (hopened.append hbefore)

/-- Of two runs under different limits, one is the other or stops at a level beyond its limit. -/
theorem Alike.cuts {p q : Rule α} (h : Alike limit limit' x p q) (hs : x.Fits s s) :
    Cuts limit (p s) (q s) := by
  induction h generalizing s with
  | pure a => exact cuts_of_log_eq_nil rfl
  | bind _ _ ihp ihf => exact cuts_bind (ihp hs) fun a s' ↦ ihf a Setting.fits_none
  | look _ ih =>
    rw [current_bind_apply, current_bind_apply]
    exact ih s.current s.current rfl Setting.fits_facing
  | @read α x t u f g hx _ _ ih =>
    obtain ⟨rfl, rfl⟩ := hs t u hx
    rw [bind_apply_ok (advance_apply s), bind_apply_ok (advance_apply s)]
    exact (ih Setting.fits_none).prepend (within_advance s)
  | @readEnd α x t u f g hx _ _ ih =>
    obtain ⟨rfl, rfl⟩ := hs t u hx
    rw [bind_apply_ok (advance_apply s), bind_apply_ok (advance_apply s)]
    exact (ih Setting.fits_none).prepend (within_advance s)
  | unexpected => exact cuts_of_log_eq_nil rfl
  | @outOfRange α x t u hx =>
    obtain ⟨rfl, rfl⟩ := hs t u hx
    rw [bind_apply_ok (advance_apply s)]
    exact (cuts_of_log_eq_nil rfl).prepend (within_advance s)
  | @report x e e' h =>
    obtain rfl : e = e' := h fun t u hx ↦ (hs t u hx).1.symm.trans (hs t u hx).2
    exact .same fun _ _ hmem ↦ absurd (List.mem_singleton.mp hmem) (by simp)
  | many _ _ hnone _ ih =>
    exact cuts_rounds (fun t ↦ hnone t t rfl)
      (fun p q s hp hq ↦ ih s.current s.current p q rfl hp hq Setting.fits_facing) s.tokens s
  | nested _ hlt _ ih => exact cuts_nested hlt (ih hs)
  | tooDeep => exact cuts_of_log_eq_nil rfl
  | @cut α x _ hlimit _ q =>
    rw [hlimit]
    exact .cut rfl (List.nil_append _).symm fun _ _ hmem ↦ absurd hmem (by simp)

/-! ## Runs that no limit stops -/

theorem alike_program (hle : limit ≤ limit') :
    Alike limit limit' ⟨0, true, none⟩ (program limit) (program limit') :=
  alike_programFrom (x := ⟨0, true, none⟩) hle (Nat.zero_add _) (Nat.zero_add _)

theorem accounted_program (limit : Nat) (s : Stream) :
    Accounted limit ⟨0, true, none⟩ s (program limit s) :=
  (alike_program (Nat.le_refl limit)).accounted (Setting.fits_none (u := s))

end Rule

namespace Replays

variable {d d' k : Nat} {s s' : Stream} {before after : List Mark} {t : Token}

private theorem countP_reads_le {log : List Mark} (h : Replays d s log d' s') :
    (log.filterMap Mark.read?).countP (·.kind ≠ .endOfInput) + s'.tokens.length ≤
      s.tokens.length := by
  induction h with
  | nil => exact (Nat.zero_add _).le
  | event _ _ ih => exact ih
  | @read d d' s s' log _ ih =>
    rw [filterMap_read?_cons, List.countP_cons]
    split
    · next hkind =>
      have := Stream.length_advance_lt (s := s) (by simpa using hkind)
      omega
    · exact ih.trans (by simp [Stream.advance])
  | opened _ ih => exact ih
  | closed _ ih => exact ih

/-- A level is entered at a token of the stream, and its number says how many others are open. -/
private theorem exists_of_opened (h : Replays d s (before ++ .opened k t :: after) d' s') :
    k = openLevels d before ∧
      ∃ i, t = (s.drop i).current ∧ Replays (k + 1) (s.drop i) after d' s' := by
  obtain ⟨m, u, hbefore, hafter⟩ := h.of_append
  have hlevels := hbefore.openLevels_eq
  have hrest := hbefore.rest_eq
  cases hafter with
  | opened hafter => exact ⟨hlevels.symm, _, congrArg Stream.current hrest, hrest ▸ hafter⟩

end Replays

/-! ## Where levels are entered -/

theorem tokenAt_of_le {source : String} {i : Nat}
    (h : (Stream.ofSource source).tokens.length ≤ i) :
    tokenAt source i = .endOfInput source.utf8ByteSize := by
  rw [← current_drop_ofSource, Stream.current, Stream.drop, List.drop_of_length_le h]
  exact congrArg Token.endOfInput (byteLength_toList source)

/-- The tokens of a source, with the end of input, start one behind the other. -/
theorem pairwise_start_scan (source : String) :
    (Token.scan source).Pairwise (·.span.start < ·.span.start) := by
  have hscan := (tokenized_place [] source.toList).isScan
  rw [← Stream.toList_ofSource, Stream.toList, List.pairwise_append]
  refine ⟨hscan.stop_le_start.imp_of_mem fun {t u} ht _ hle ↦ ?_, List.pairwise_singleton _ _, ?_⟩
  · exact (hscan.start_lt_stop t ht).trans_le hle
  · rintro t ht u hu
    obtain rfl := List.mem_singleton.mp hu
    refine (hscan.start_lt_stop t ht).trans_le ((hscan.isValid t ht).2.le_utf8ByteSize.trans ?_)
    exact (byteLength_toList source).ge

private theorem start_tokenAt_lt_or_eq {source : String} {i j : Nat} (h : i ≤ j) :
    (tokenAt source i).span.start < (tokenAt source j).span.start ∨
      tokenAt source i = tokenAt source j := by
  have hlength : (Token.scan source).length = (Stream.ofSource source).tokens.length + 1 := by
    rw [← Stream.toList_ofSource, Stream.toList, List.length_append, List.length_singleton]
  rcases Nat.lt_or_ge i (Stream.ofSource source).tokens.length with hi | hi
  · rcases Nat.eq_or_lt_of_le h with rfl | hlt
    · exact .inr rfl
    · -- Beyond the end, the token is the one at the end.
      have hj : tokenAt source j =
          tokenAt source (min j (Stream.ofSource source).tokens.length) := by
        rcases Nat.le_total j (Stream.ofSource source).tokens.length with hle | hle
        · rw [Nat.min_eq_left hle]
        · rw [Nat.min_eq_right hle, tokenAt_of_le hle, tokenAt_of_le (Nat.le_refl _)]
      have hpairwise := List.pairwise_iff_getElem.mp (pairwise_start_scan source) i
        (min j (Stream.ofSource source).tokens.length) (by omega) (by omega) (by omega)
      rw [hj, tokenAt, tokenAt, List.getD_eq_getElem?_getD, List.getD_eq_getElem?_getD,
        List.getElem?_eq_getElem (by omega), List.getElem?_eq_getElem (by omega)]
      exact .inl hpairwise
  · rw [tokenAt_of_le hi, tokenAt_of_le (hi.trans h)]
    exact .inr rfl

/-- `Enters source level t`: at the token `t`, the run that reads a source without a limit enters a
statement or a parenthesised factor while `level` others are open. -/
def Enters (source : String) (level : Nat) (t : Token) : Prop :=
  ∃ before k after, (parseUnlimitedRun source).log = before ++ .opened k t :: after ∧
    openLevels 0 before = level

section

variable {source : String} {limit : Nat}

private theorem replays_parseUnlimitedRun (source : String) :
    Replays 0 (Stream.ofSource source) (parseUnlimitedRun source).log 0
      (parseUnlimitedRun source).rest :=
  .event _ (Rule.accounted_program _ _).replays

private theorem parseWithin_ne_nestingTooDeep (h : (Stream.ofSource source).tokens.length ≤ limit)
    (l : Nat) (t : Token) : parseWithin limit source ≠ .error (.nestingTooDeep l t) := by
  intro heq
  have haccounted := Rule.accounted_program limit (Stream.ofSource source)
  have hrisen := haccounted.risen l t heq
  have hreads := haccounted.replays.countP_reads_le
  simp only [Rule.tokensRead, Outcome.reads, Bool.toNat_true] at hrisen hreads
  omega

/-- A run with room for every token is the run without a limit, and opens no more levels than there
are tokens. -/
private theorem program_of_le_tokens (h : (Stream.ofSource source).tokens.length ≤ limit) :
    Rule.program limit (Stream.ofSource source) =
        Rule.program (Stream.ofSource source).tokens.length (Stream.ofSource source) ∧
      Rule.Within (Stream.ofSource source).tokens.length
        (Rule.program limit (Stream.ofSource source)).log := by
  have hne : ∀ l t, parseWithin _ source ≠ .error (.nestingTooDeep l t) :=
    parseWithin_ne_nestingTooDeep (Nat.le_refl _)
  have hcuts := (Rule.alike_program h).cuts (Rule.Setting.fits_none (s := Stream.ofSource source))
  rw [parseWithin, Rule.run] at hne
  generalize Rule.program limit (Stream.ofSource source) = o at hcuts ⊢
  generalize Rule.program (Stream.ofSource source).tokens.length (Stream.ofSource source) = o'
    at hcuts hne ⊢
  cases hcuts with
  | same hwithin => exact ⟨rfl, hwithin⟩
  | cut hresult => exact absurd hresult (hne _ _)

private theorem cuts_parseUnlimited (limit : Nat) (source : String) :
    Rule.Cuts limit (Rule.program limit (Stream.ofSource source))
      (Rule.program (Stream.ofSource source).tokens.length (Stream.ofSource source)) := by
  rcases Nat.le_total limit (Stream.ofSource source).tokens.length with hle | hle
  · exact (Rule.alike_program hle).cuts Rule.Setting.fits_none
  · obtain ⟨heq, hwithin⟩ := program_of_le_tokens hle
    rw [← heq]
    exact .same (hwithin.mono hle)

private theorem Enters.exists_opened {t : Token} (h : Enters source limit t) :
    ∃ before after, (parseUnlimitedRun source).log = before ++ .opened limit t :: after := by
  obtain ⟨before, k, after, hlog, hlevels⟩ := h
  have hreplays := replays_parseUnlimitedRun source
  rw [hlog] at hreplays
  obtain ⟨rfl, -⟩ := hreplays.exists_of_opened
  exact ⟨before, after, by rw [hlog, hlevels]⟩

private theorem enters_of_log_eq {before after : List Mark} {t : Token}
    (h : (parseUnlimitedRun source).log = before ++ .opened limit t :: after) :
    Enters source limit t := by
  have hreplays := replays_parseUnlimitedRun source
  rw [h] at hreplays
  exact ⟨before, limit, after, h, hreplays.exists_of_opened.1.symm⟩

private theorem start_lt_or_eq_of_log_eq {before between after : List Mark} {k : Nat} {t u : Token}
    (h : (parseUnlimitedRun source).log =
      before ++ .opened limit t :: (between ++ .opened k u :: after)) :
    t.span.start < u.span.start ∨ t = u := by
  have hreplays := replays_parseUnlimitedRun source
  rw [h] at hreplays
  obtain ⟨-, i, rfl, hafter⟩ := hreplays.exists_of_opened
  obtain ⟨-, j, rfl, -⟩ := hafter.exists_of_opened
  rw [Stream.drop_drop, current_drop_ofSource, current_drop_ofSource]
  exact start_tokenAt_lt_or_eq (Nat.le_add_right i j)

/-- Either no level is too deep and the limit changes nothing, or the first level that is too deep
is reported. -/
private theorem parseWithin_cases (limit : Nat) (source : String) :
    (parseWithin limit source = parseUnlimited source ∧ ∀ t, ¬ Enters source limit t) ∨
      ∃ t, parseWithin limit source = .error (.nestingTooDeep limit t) ∧ Enters source limit t ∧
        ∀ u, Enters source limit u → t.span.start < u.span.start ∨ t = u := by
  have hcuts := cuts_parseUnlimited limit source
  have hlog : (parseUnlimitedRun source).log = .event (.scanned (Stream.ofSource source).current) ::
      (Rule.program (Stream.ofSource source).tokens.length (Stream.ofSource source)).log := rfl
  -- An entry that opens a level is not the one about the first token.
  have hmem : ∀ {k u b}, Mark.opened k u ∈
      Mark.event (.scanned (Stream.ofSource source).current) :: b → Mark.opened k u ∈ b :=
    fun h ↦ (List.mem_cons.mp h).resolve_left (by simp)
  rw [parseWithin, parseUnlimited, parseUnlimitedRun, Rule.run, Rule.run]
  generalize Rule.program limit (Stream.ofSource source) = o at hcuts ⊢
  generalize Rule.program (Stream.ofSource source).tokens.length (Stream.ofSource source) = o'
    at hcuts hlog ⊢
  cases hcuts with
  | same hwithin =>
    refine .inl ⟨rfl, fun t ht ↦ ?_⟩
    obtain ⟨before, after, heq⟩ := ht.exists_opened
    have hopened : Mark.opened limit t ∈ o.log := hmem (hlog ▸ heq ▸ by simp)
    exact Nat.lt_irrefl _ (hwithin _ _ hopened)
  | @cut _ t before after hresult hlog' hbefore =>
    rw [hlog', ← List.cons_append] at hlog
    refine .inr ⟨t, hresult, enters_of_log_eq hlog, fun u hu ↦ ?_⟩
    obtain ⟨before', after', heq⟩ := hu.exists_opened
    -- Another level that is too deep is in the account behind the first one, or in front of it.
    rcases List.append_eq_append_iff.mp (hlog.symm.trans heq) with
      ⟨between, rfl, hrest⟩ | ⟨between, hfirst, hrest⟩
    · cases between with
      | nil => exact .inr (Mark.opened.inj (List.cons.inj hrest).1).2
      | cons m between =>
        obtain ⟨rfl, rfl⟩ := List.cons.inj hrest
        exact start_lt_or_eq_of_log_eq hlog
    · cases between with
      | nil => exact .inr (Mark.opened.inj (List.cons.inj hrest).1).2.symm
      | cons m between =>
        obtain ⟨rfl, -⟩ := List.cons.inj hrest
        have hopened : Mark.opened limit u ∈ before := hmem (hfirst ▸ by simp)
        exact absurd (hbefore _ _ hopened) (Nat.lt_irrefl _)

/-- The token that is reported is the first one in the source at which a level is too deep. -/
private theorem parseWithin_eq_nestingTooDeep_iff {l : Nat} {t : Token} :
    parseWithin limit source = .error (.nestingTooDeep l t) ↔ l = limit ∧ Enters source limit t ∧
      ∀ u, Enters source limit u → t.span.start ≤ u.span.start := by
  rcases parseWithin_cases limit source with ⟨heq, hnone⟩ | ⟨t', heq, henters, hfirst⟩
  · refine iff_of_false (fun h ↦ ?_) fun h ↦ hnone t h.2.1
    exact parseWithin_ne_nestingTooDeep (Nat.le_refl _) l t (heq.symm.trans h)
  · rw [heq, Except.error.injEq, SyntaxError.nestingTooDeep.injEq]
    constructor
    · rintro ⟨rfl, rfl⟩
      refine ⟨rfl, henters, fun u hu ↦ ?_⟩
      rcases hfirst u hu with hlt | rfl
      · exact hlt.le
      · exact Nat.le_refl _
    · rintro ⟨rfl, ht, hle⟩
      refine ⟨rfl, (hfirst t ht).resolve_left ?_⟩
      exact (hle t' henters).not_gt

private theorem run_program_of_le_tokens (h : (Stream.ofSource source).tokens.length ≤ limit) :
    (Rule.program limit).run source = parseUnlimitedRun source := by
  rw [parseUnlimitedRun, Rule.run, Rule.run, (program_of_le_tokens h).1]

private theorem parseWithin_eq_of_le {limit' : Nat} (hle : limit ≤ limit') :
    (∃ t, parseWithin limit source = .error (.nestingTooDeep limit t)) ∨
      parseWithin limit source = parseWithin limit' source := by
  have hcuts := (Rule.alike_program hle).cuts
    (Rule.Setting.fits_none (s := Stream.ofSource source))
  rw [parseWithin, parseWithin, Rule.run, Rule.run]
  generalize Rule.program limit (Stream.ofSource source) = o at hcuts ⊢
  generalize Rule.program limit' (Stream.ofSource source) = o' at hcuts ⊢
  cases hcuts with
  | same => exact .inr rfl
  | cut hresult => exact .inl ⟨_, hresult⟩

/-- **The limit on nesting only ever reports the first level that is too deep.** Under a limit, the
error that the nesting is too deep comes up exactly if the run without a limit enters a statement or
a parenthesised factor where as many others are open, and it names the first token at which that
happens. In every other case the result is that of the run without a limit, which never fails in
this way and is the run under any limit that is no less than the number of tokens. So a greater
limit changes nothing where the smaller one was not exceeded, and a program is accepted exactly if
its nesting is within the limit. -/
theorem parseWithin_limit_exact (source : String) :
    (∀ limit l t, parseWithin limit source = .error (.nestingTooDeep l t) ↔
      l = limit ∧ Enters source limit t ∧
        ∀ u, Enters source limit u → t.span.start ≤ u.span.start) ∧
    (∀ limit, (∀ t, ¬ Enters source limit t) → parseWithin limit source = parseUnlimited source) ∧
    (∀ l t, parseUnlimited source ≠ .error (.nestingTooDeep l t)) ∧
    (∀ limit, (Stream.ofSource source).tokens.length ≤ limit →
      (Rule.program limit).run source = parseUnlimitedRun source) ∧
    (∀ limit limit', limit ≤ limit' →
      (∃ t, parseWithin limit source = .error (.nestingTooDeep limit t)) ∨
        parseWithin limit source = parseWithin limit' source) ∧
    ∀ p n, DerivesProgram ((Token.scan source).map Token.terminal) p n →
      (parse source = .ok p ↔ n ≤ maxNesting) := by
  refine ⟨fun _ _ _ ↦ parseWithin_eq_nestingTooDeep_iff, fun limit hnone ↦ ?_,
    parseWithin_ne_nestingTooDeep (Nat.le_refl _), fun _ ↦ run_program_of_le_tokens,
    fun _ _ ↦ parseWithin_eq_of_le, fun p n hp ↦ ?_⟩
  · rcases parseWithin_cases limit source with ⟨heq, -⟩ | ⟨t, -, henters, -⟩
    · exact heq
    · exact absurd henters (hnone t)
  · rw [← parseWithin_maxNesting, parseWithin_eq_ok_iff_derives]
    constructor
    · rintro ⟨m, hm, hle⟩
      rwa [(hp.unique hm).2]
    · exact fun hle ↦ ⟨n, hp, hle⟩

end

end Kay
