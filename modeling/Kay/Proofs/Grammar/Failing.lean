import Kay.Proofs.Grammar.Statement

/-!
# Where rules fail

The counterpart of what rules read: `Fails p s e s'` says that `p` stops on `s` with the error `e`
and leaves `s'`. A sequence fails in its first part, or in its second one behind what the first one
has read; a repetition fails in an item behind others that were read (`Breaks`).
-/

namespace Kay.Rule

variable {α β : Type} {s s' : Stream} {e : SyntaxError}

/-- `Fails p s e s'`: the rule `p` stops on the stream `s` with the error `e` and leaves `s'`. -/
def Fails (p : Rule α) (s : Stream) (e : SyntaxError) (s' : Stream) : Prop :=
  (p s).result = .error e ∧ (p s).rest = s'

@[simp] theorem not_fails_pure {a : α} : ¬ Fails (pure a : Rule α) s e s' := by
  rintro ⟨h, -⟩
  exact absurd h (by simp)

/-- A sequence fails in one of its parts. -/
theorem fails_bind {p : Rule α} {f : α → Rule β} :
    Fails (p >>= f) s e s' ↔ Fails p s e s' ∨ ∃ a s₁, Yields p s a s₁ ∧ Fails (f a) s₁ e s' := by
  rcases hp : p s with ⟨e' | a, rest, log⟩
  · rw [Fails, bind_apply_error hp, Fails, hp]
    constructor
    · rintro ⟨h, hrest⟩
      exact .inl ⟨congrArg Except.error (Except.error.inj h), hrest⟩
    · rintro (⟨h, hrest⟩ | ⟨a, s₁, ⟨h, -⟩, -⟩)
      · exact ⟨congrArg Except.error (Except.error.inj h), hrest⟩
      · exact absurd h (by simp [hp])
  · rw [Fails, bind_apply_ok hp, Fails, hp]
    constructor
    · intro h
      exact .inr ⟨a, rest, ⟨by rw [hp], by rw [hp]⟩, h⟩
    · rintro (⟨h, -⟩ | ⟨a', s₁, ⟨ha, hs⟩, h⟩)
      · exact absurd h (by simp)
      · rw [hp, Except.ok.injEq] at ha
        rw [hp] at hs
        subst ha hs
        exact h

private theorem fails_map {f : α → β} {p : Rule α} : Fails (f <$> p) s e s' ↔ Fails p s e s' := by
  rw [← bind_pure_comp, fails_bind]
  simp

@[simp] theorem not_fails_current : ¬ Fails current s e s' := by
  rintro ⟨h, -⟩
  exact absurd h (by simp [current])

@[simp] theorem not_fails_advance : ¬ Fails advance s e s' := by
  rintro ⟨h, -⟩
  exact absurd h (by simp [advance])

@[simp] theorem not_fails_report {event : Event} : ¬ Fails (report event) s e s' := by
  rintro ⟨h, -⟩
  exact absurd h (by simp [report, note])

theorem fails_fail {e' : SyntaxError} : Fails (fail e' : Rule α) s e s' ↔ e = e' ∧ s' = s := by
  rw [Fails, fail, Except.error.injEq]
  exact ⟨fun h ↦ ⟨h.1.symm, h.2.symm⟩, fun h ↦ ⟨h.1.symm, h.2.symm⟩⟩

theorem fails_current_bind {f : Token → Rule β} :
    Fails (current >>= f) s e s' ↔ Fails (f s.current) s e s' := by
  rw [fails_bind]
  simp

theorem fails_advance_bind {f : Token → Rule β} :
    Fails (advance >>= f) s e s' ↔ Fails (f s.current) s.advance e s' := by
  rw [fails_bind]
  simp

theorem fails_report_bind {event : Event} {f : Unit → Rule β} :
    Fails (report event >>= f) s e s' ↔ Fails (f ()) s e s' := by
  have hyields : ∀ {u s₁}, Yields (report event) s u s₁ ↔ s₁ = s := yields_note
  rw [fails_bind]
  simp only [not_fails_report, hyields, false_or, exists_eq_left]
  exact ⟨fun ⟨_, h⟩ ↦ h, fun h ↦ ⟨(), h⟩⟩

@[simp] theorem fails_nested {depth : Nat} {p : Rule α} :
    Fails (nested depth p) s e s' ↔ Fails p s e s' :=
  Iff.rfl

theorem fails_unexpected {context : Context} {expected : Expectation} :
    Fails (unexpected context expected : Rule α) s e s' ↔
      e = .unexpectedToken context expected s.current ∧ s' = s := by
  rw [unexpected, fails_current_bind, fails_fail]

theorem fails_tooDeep {limit : Nat} :
    Fails (tooDeep limit : Rule α) s e s' ↔ e = .nestingTooDeep limit s.current ∧ s' = s := by
  rw [tooDeep, fails_current_bind, fails_fail]

/-! ## Repetitions -/

/-- `Breaks next s e s'`: items are read from `s` for as long as the current token calls for one,
until one of them fails with the error `e` and leaves `s'`. -/
inductive Breaks (next : Token → Option (Rule α)) (e : SyntaxError) (s' : Stream) : Stream → Prop
  | here {s : Stream} {p : Rule α} (h : next s.current = some p) (hp : Fails p s e s') :
      Breaks next e s' s
  | step {s s₁ : Stream} {p : Rule α} {a : α} (h : next s.current = some p) (ha : Yields p s a s₁)
      (has : Breaks next e s' s₁) : Breaks next e s' s

private theorem breaks_of_fails_rounds {next : Token → Option (Rule α)} {fuel : List Token}
    (h : Fails (rounds next fuel) s e s') : Breaks next e s' s := by
  induction fuel generalizing s with
  | nil => exact absurd h not_fails_pure
  | cons t fuel ih =>
    rw [rounds, fails_current_bind] at h
    split at h
    · exact absurd h not_fails_pure
    · next p hp =>
      rcases fails_bind.mp h with h | ⟨a, s₁, ha, h⟩
      · exact .here hp h
      · exact .step hp ha (ih (fails_map.mp h))

/-- A repetition fails in one of its items. -/
theorem breaks_of_fails_many {next : Token → Option (Rule α)} (h : Fails (many next) s e s') :
    Breaks next e s' s :=
  breaks_of_fails_rounds h

end Kay.Rule
