import Kay.Proofs.Grammar.Alike

/-!
# Runs without a bound

The rule `many` is given a bound on its rounds, so that it is a function from the start. The loops
of a parser have no such bound: they go on for as long as the token ahead calls for an item. `Runs`
is that parser. The outcome of a rule is put together from the outcomes of its parts, that of a loop
round by round, and a loop that went on for ever would have none.

Two things make runs end, and both are premises here. A round of a loop leaves fewer tokens ahead
than there were (`Loops.round`), and rules that call each other again open a level, of which there
is room for a fixed number (`Runs.nested`).

Every rule of the grammar has an outcome in this sense (`Alike.runs`), and it has no other than the
one that is computed under the bound (`Runs.eq`). So the bound is never what ends a loop.
-/

namespace Kay.Rule

variable {α β : Type} {room : Nat} {s : Stream}

/-! ## Outcomes -/

mutual

/-- `Runs room p s o`: on the stream `s`, the rule `p` comes to the outcome `o`, and no more than
`room` levels are open at once inside it. -/
inductive Runs : {α : Type} → Nat → Rule α → Stream → Outcome α → Prop
  | pure {α : Type} {room : Nat} {s : Stream} (a : α) : Runs room (pure a) s ⟨.ok a, s, []⟩
  | current {room : Nat} {s : Stream} : Runs room current s ⟨.ok s.current, s, []⟩
  | advance {room : Nat} {s : Stream} : Runs room advance s (advance s)
  | fail {α : Type} {room : Nat} {s : Stream} (e : SyntaxError) :
      Runs room (fail e : Rule α) s ⟨.error e, s, []⟩
  | note {room : Nat} {s : Stream} (m : Mark) : Runs room (note m) s ⟨.ok (), s, [m]⟩
  | bind {α β : Type} {room : Nat} {s s' : Stream} {p : Rule α} {f : α → Rule β} {a : α}
      {log : List Mark} {o : Outcome β} (hp : Runs room p s ⟨.ok a, s', log⟩)
      (hf : Runs room (f a) s' o) : Runs room (p >>= f) s ⟨o.result, o.rest, log ++ o.log⟩
  | stopped {α β : Type} {room : Nat} {s s' : Stream} {p : Rule α} {f : α → Rule β}
      {e : SyntaxError} {log : List Mark} (hp : Runs room p s ⟨.error e, s', log⟩) :
      Runs room (p >>= f) s ⟨.error e, s', log⟩
  | nested {α : Type} {room : Nat} {s : Stream} {p : Rule α} {o : Outcome α} (depth : Nat)
      (h : Runs room p s o) : Runs (room + 1) (nested depth p) s
        ⟨o.result, o.rest, .opened depth s.current :: (o.log ++ [.closed])⟩
  | many {α : Type} {room : Nat} {s : Stream} {next : Token → Option (Rule α)}
      {o : Outcome (List α)} (h : Loops room next s o) : Runs room (many next) s o

/-- `Loops room next s o`: the loop that reads items for as long as `next` calls for one comes to
the outcome `o`. It calls for none at the end of input. -/
inductive Loops : {α : Type} → Nat → (Token → Option (Rule α)) → Stream → Outcome (List α) → Prop
  | done {α : Type} {room : Nat} {s : Stream} {next : Token → Option (Rule α)}
      (h : next s.current = none) : Loops room next s ⟨.ok [], s, []⟩
  | round {α : Type} {room : Nat} {s s' : Stream} {next : Token → Option (Rule α)} {p : Rule α}
      {a : α} {log : List Mark} {o : Outcome (List α)} (h : next s.current = some p)
      (hitem : Runs room p s ⟨.ok a, s', log⟩) (hlt : s'.tokens.length < s.tokens.length)
      (hrest : Loops room next s' o) :
      Loops room next s ⟨o.result.map (a :: ·), o.rest, log ++ o.log⟩
  | broken {α : Type} {room : Nat} {s s' : Stream} {next : Token → Option (Rule α)} {p : Rule α}
      {e : SyntaxError} {log : List Mark} (h : next s.current = some p) (hs : s.tokens ≠ [])
      (hitem : Runs room p s ⟨.error e, s', log⟩) : Loops room next s ⟨.error e, s', log⟩

end

/-! ## Every outcome is the one that is computed -/

private theorem rounds_eq_of_yields {next : Token → Option (Rule α)} {fuel : List Token}
    {p : Rule α} {s' : Stream} {t : Token} {a : α} {log : List Mark} (h : next s.current = some p)
    (hitem : p s = ⟨.ok a, s', log⟩) : rounds next (t :: fuel) s =
      ⟨(rounds next fuel s').result.map (a :: ·), (rounds next fuel s').rest,
        log ++ (rounds next fuel s').log⟩ := by
  rw [rounds_cons_of_some h, bind_apply_ok hitem]
  rfl

mutual

theorem Runs.eq {α : Type} {room : Nat} {p : Rule α} {s : Stream} {o : Outcome α} :
    Runs room p s o → p s = o
  | .pure _ => rfl
  | .current => rfl
  | .advance => rfl
  | .fail _ => rfl
  | .note _ => rfl
  | .bind hp hf => by rw [bind_apply_ok hp.eq, hf.eq]
  | .stopped hp => bind_apply_error hp.eq
  | .nested _ h => by rw [Rule.nested, h.eq]
  | .many h => h.eq (Nat.le_refl _)

/-- Each round takes a token at least, so that a bound of as many rounds as tokens is enough. -/
theorem Loops.eq {α : Type} {room : Nat} {next : Token → Option (Rule α)} {s : Stream}
    {o : Outcome (List α)} : Loops room next s o →
      ∀ {fuel : List Token}, s.tokens.length ≤ fuel.length → rounds next fuel s = o
  | .done h, _, _ => rounds_of_none h
  | .round _ _ hlt _, [], hfuel => absurd (hlt.trans_le hfuel) (Nat.not_lt_zero _)
  | .round h hitem hlt hrest, _ :: _, hfuel => by
    rw [rounds_eq_of_yields h hitem.eq, hrest.eq (Nat.le_of_lt_succ (hlt.trans_le hfuel))]
  | .broken _ hs _, [], hfuel => absurd (List.length_eq_zero_iff.mp (Nat.le_zero.mp hfuel)) hs
  | .broken h _ hitem, _ :: _, _ => by rw [rounds_cons_of_some h, bind_apply_error hitem.eq]

end

/-- A rule that comes to an outcome comes to the one that it computes, and to no other. -/
theorem runs_iff {p : Rule α} (h : Runs room p s (p s)) {o : Outcome α} :
    Runs room p s o ↔ p s = o :=
  ⟨Runs.eq, fun heq ↦ heq ▸ h⟩

/-! ## Every rule of the grammar comes to an outcome -/

private theorem runs_bind {p : Rule α} {f : α → Rule β} (hp : Runs room p s (p s))
    (hf : ∀ a s', Runs room (f a) s' (f a s')) : Runs room (p >>= f) s ((p >>= f) s) := by
  rcases h : p s with ⟨e | a, rest, log⟩
  · rw [h] at hp
    rw [bind_apply_error h]
    exact .stopped hp
  · rw [h] at hp
    rw [bind_apply_ok h]
    exact .bind hp (hf a rest)

private theorem runs_current_bind {f : Token → Rule α}
    (hf : Runs room (f s.current) s (f s.current s)) :
    Runs room (current >>= f) s ((current >>= f) s) :=
  .bind .current hf

private theorem runs_advance_bind {f : Token → Rule α}
    (hf : Runs room (f s.current) s.advance (f s.current s.advance)) :
    Runs room (advance >>= f) s ((advance >>= f) s) :=
  .bind .advance hf

private theorem runs_tooDeep (depth : Nat) :
    Runs room (tooDeep depth : Rule α) s (tooDeep depth s) :=
  runs_current_bind (.fail _)

/-- Items that take a token each, and are not called for at the end of input, end their loop. -/
private theorem loops_rounds {next : Token → Option (Rule α)} (hnext : Progressive next)
    (h : ∀ p s, next s.current = some p → Runs room p s (p s)) {fuel : List Token}
    (hfuel : s.tokens.length ≤ fuel.length) : Loops room next s (rounds next fuel s) := by
  induction fuel generalizing s with
  | nil =>
    have hnone := hnext.eq_none_of_nil (List.length_eq_zero_iff.mp (Nat.le_zero.mp hfuel))
    exact .done hnone
  | cons t fuel ih =>
    cases hp : next s.current with
    | none =>
      rw [rounds_of_none hp]
      exact .done hp
    | some p =>
      have hitem := h p s hp
      rcases hout : p s with ⟨e | a, rest, log⟩
      · have hs : s.tokens ≠ [] := fun hnil ↦ by simp [hnext.eq_none_of_nil hnil] at hp
        rw [hout] at hitem
        rw [rounds_cons_of_some hp, bind_apply_error hout]
        exact .broken hp hs hitem
      · have hlt : rest.tokens.length < s.tokens.length :=
          hnext.length_lt hp ⟨congrArg Outcome.result hout, congrArg Outcome.rest hout⟩
        rw [hout] at hitem
        rw [rounds_eq_of_yields hp hout]
        exact .round hp hitem hlt (ih (Nat.le_of_lt_succ (hlt.trans_le hfuel)))

/-- Every rule comes to an outcome, within the levels that may still be opened. -/
theorem Alike.runs {limit limit' : Nat} {x : Setting} {p q : Rule α} {u : Stream}
    (h : Alike limit limit' x p q) (hs : x.Fits s u) : Runs (limit - x.depth) p s (p s) := by
  induction h generalizing s u with
  | pure a => exact .pure a
  | bind _ _ ihp ihf => exact runs_bind (ihp hs) fun a s' ↦ ihf a (Setting.fits_none (u := s'))
  | look _ ih =>
    exact runs_current_bind (ih s.current s.current rfl (Setting.fits_facing (u := s)))
  | read hx _ _ ih =>
    obtain ⟨rfl, -⟩ := hs _ _ hx
    exact runs_advance_bind (ih (Setting.fits_none (u := s)))
  | readEnd hx _ _ ih =>
    obtain ⟨rfl, -⟩ := hs _ _ hx
    exact runs_advance_bind (ih (Setting.fits_none (u := s)))
  | unexpected context expected => exact runs_current_bind (.fail _)
  | outOfRange => exact runs_advance_bind (.fail _)
  | report => exact .note _
  | many hnext _ hnone _ ih =>
    refine .many (loops_rounds hnext (fun p s hp ↦ ?_) (Nat.le_refl _))
    obtain ⟨q, hq⟩ := exists_eq_some_of_none_iff (hnone s.current s.current rfl) hp
    exact ih s.current s.current p q rfl hp hq (Setting.fits_facing (u := s))
  | @nested α x p q _ hlt _ ih =>
    have hroom : limit - x.depth = limit - (x.depth + 1) + 1 := by omega
    rw [hroom]
    exact .nested x.depth (ih hs)
  | tooDeep => exact runs_tooDeep _
  | cut => exact runs_tooDeep _

/-- Under a limit, the room is what the open levels leave of it. -/
theorem Steady.runs {depth limit' : Nat} {p q : Rule α}
    (h : Steady (depth + room) limit' depth p q) (s : Stream) : Runs room p s (p s) := by
  have hruns := (h none).runs (Setting.fits_none (s := s) (u := s))
  rwa [Nat.add_sub_cancel_left] at hruns

theorem runs_level (depth room : Nat) (l : Grammar.Level) (s : Stream) :
    Runs room (level l (group depth room)) s (level l (group depth room) s) := by
  have hgroup := steadyGroup_group (Nat.le_refl (depth + room)) (d := depth) rfl rfl
  exact (steady_level hgroup (advances_group depth room) (advances_group depth room) l).runs s

theorem runs_statement (depth room : Nat) (s : Stream) :
    Runs room (statement depth room) s (statement depth room s) :=
  (steady_statement (Nat.le_refl (depth + room)) (d := depth) rfl rfl).runs s

theorem runs_program (limit : Nat) (s : Stream) :
    Runs limit (program limit) s (program limit s) :=
  (alike_programFrom (x := ⟨0, false, none⟩) (Nat.le_refl limit) (Nat.zero_add _)
    (Nat.zero_add _)).runs (Setting.fits_none (u := s))

end Kay.Rule
