import Kay.Proofs.Token.Scan
import Kay.Proofs.Token.Terminal
import Kay.Token.Scanner

/-!
# Scanners that are asked in two ways

`next` always answers, and `next?` does not answer any more once the end of input has been handed
out. The two can be mixed: however a scanner is asked, it hands out the tokens of its source in
order, then the end of input as often as `next` asks for more, and what it has not handed out is
still to be had (`questions_interleaved`).

A scanner is known by what `next?` would still get from it (`remaining`). As long as this is not
empty, both questions take its first token (`remaining_eq_cons`). Once it is empty, the scanner does
not change any more (`next_of_ended`).
-/

namespace Kay.Scanner

open Text Lexeme

variable {s : Scanner}

/-! ## Questions -/

/-- The two ways to ask a scanner for a token. -/
inductive Question where
  | next
  | next?
deriving DecidableEq, Repr

/-- The answer to a question, if there is one, and the scanner behind it. -/
def answer (s : Scanner) : Question → Option Token × Scanner
  | .next => s.next.map some id
  | .next? => s.next?

/-- The scanner behind questions in sequence. -/
def after (s : Scanner) (qs : List Question) : Scanner := qs.foldl (fun s q ↦ (s.answer q).2) s

/-- The tokens that are handed out in answer to questions in sequence. -/
def handed (s : Scanner) : List Question → List Token
  | [] => []
  | q :: qs => (s.answer q).1.toList ++ handed (s.answer q).2 qs

/-- `Drains s ts s'`: asked with `next?` for as long as it answers, the scanner `s` hands out the
tokens `ts` and is left as `s'`. -/
inductive Drains : Scanner → List Token → Scanner → Prop
  | done {s s' : Scanner} (h : s.next? = (none, s')) : Drains s [] s'
  | token {s s' s'' : Scanner} {t : Token} {ts : List Token} (h : s.next? = (some t, s'))
      (hts : Drains s' ts s'') : Drains s (t :: ts) s''

/-! ## One question -/

/-- Where the source of a scanner ends. -/
def stop (s : Scanner) : Nat := s.offset + byteLength s.rest

/-- Whether a scanner that has handed out the end of input is there. -/
def Settled (s : Scanner) : Prop := s.ended = true → s.rest = []

private theorem next_of_some {l : Lexeme} {rest : List Char} (h : first? s.rest = some (l, rest)) :
    s.next = (Token.ofLexeme s.offset l,
      ⟨rest, (Token.ofLexeme s.offset l).span.stop, s.ended⟩) := by
  rw [next, h]

private theorem next_of_none (h : first? s.rest = none) :
    s.next = (.endOfInput s.stop, ⟨[], s.stop, true⟩) := by
  rw [next, h]
  rfl

private theorem stop_of_some {l : Lexeme} {rest : List Char} (h : first? s.rest = some (l, rest)) :
    (Token.ofLexeme s.offset l).span.stop + byteLength rest = s.stop := by
  rw [stop, ← append_of_first? h]
  simp only [Token.ofLexeme, byteLength_append, Nat.add_assoc]

@[simp] theorem stop_next (s : Scanner) : s.next.2.stop = s.stop := by
  cases h : first? s.rest with
  | none => rw [next_of_none h]; rfl
  | some step => rw [next_of_some h]; exact stop_of_some h

private theorem ended_next_iff :
    s.next.2.ended = true ↔ s.ended = true ∨ s.next.1.kind = .endOfInput := by
  cases h : first? s.rest with
  | none => simp [next_of_none h, Token.endOfInput]
  | some step =>
    have hkind := (first?_eq_some_iff.mp h).2.2.admissible.ne_endOfInput
    simp [next_of_some h, Token.ofLexeme, hkind]

private theorem settled_next (hs : s.Settled) : s.next.2.Settled := by
  cases h : first? s.rest with
  | none => rw [next_of_none h]; exact fun _ ↦ rfl
  | some step =>
    rw [next_of_some h]
    intro hended
    rw [hs hended, first?_of_finalGap (.closed .nil)] at h
    exact absurd h (by simp)

theorem next_of_ended (hs : s.Settled) (h : s.ended = true) : s.next = (.endOfInput s.stop, s) := by
  obtain ⟨rest, offset, ended⟩ := s
  obtain rfl : ended = true := h
  obtain rfl : rest = [] := hs rfl
  exact next_of_none (first?_of_finalGap (.closed .nil))

private theorem next?_of_ended (h : s.ended = true) : s.next? = (none, s) := by
  rw [next?, if_pos h]

private theorem next?_of_not_ended (h : s.ended = false) : s.next? = (some s.next.1, s.next.2) := by
  rw [next?, if_neg (ne_true_of_eq_false h)]
  rfl

/-- A scanner that has not ended answers both questions alike. -/
private theorem answer_of_not_ended (h : s.ended = false) (q : Question) :
    s.answer q = (some s.next.1, s.next.2) := by
  cases q with
  | next => rfl
  | next? => exact next?_of_not_ended h

/-! ## What is left -/

private theorem remaining_of_ended (h : s.ended = true) : s.remaining = [] := by
  rw [remaining, if_pos h]

theorem remaining_eq_cons (h : s.ended = false) : s.remaining = s.next.1 :: s.next.2.remaining := by
  rw [remaining, if_neg (ne_true_of_eq_false h)]
  cases hfirst : first? s.rest with
  | none =>
    rw [next_of_none hfirst, lexemes_of_none hfirst, remaining_of_ended rfl]
    rfl
  | some step =>
    rw [next_of_some hfirst, lexemes_of_some hfirst, remaining,
      if_neg (ne_true_of_eq_false h), stop_of_some hfirst]
    rfl

private theorem remaining_eq_nil_iff : s.remaining = [] ↔ s.ended = true := by
  refine ⟨fun h ↦ ?_, remaining_of_ended⟩
  by_contra hended
  rw [remaining_eq_cons ((Bool.not_eq_true _).mp hended)] at h
  exact absurd h (List.cons_ne_nil _ _)

private theorem finish_of_ended (hs : s.Settled) (h : s.ended = true) : s.finish = s := by
  obtain ⟨rest, offset, ended⟩ := s
  obtain rfl : ended = true := h
  obtain rfl : rest = [] := hs rfl
  rfl

private theorem finish_next (s : Scanner) : s.next.2.finish = s.finish :=
  congrArg (Scanner.mk [] · true) s.stop_next

/-! ## Draining -/

/-- What is left is what draining gets. -/
private theorem drains_remaining (hs : s.Settled) : Drains s s.remaining s.finish := by
  generalize h : s.remaining = ts
  induction ts generalizing s with
  | nil =>
    have hended := remaining_eq_nil_iff.mp h
    rw [finish_of_ended hs hended]
    exact .done (next?_of_ended hended)
  | cons t ts ih =>
    have hended : s.ended = false := by
      rw [← Bool.not_eq_true, ← remaining_eq_nil_iff, h]
      exact List.cons_ne_nil t ts
    rw [remaining_eq_cons hended] at h
    obtain ⟨rfl, hts⟩ := List.cons.inj h
    have hdrains := ih (settled_next hs) hts
    rw [finish_next] at hdrains
    exact .token (next?_of_not_ended hended) hdrains

theorem Drains.unique {s' s'' : Scanner} {ts us : List Token} (h : Drains s ts s')
    (h' : Drains s us s'') : ts = us ∧ s' = s'' := by
  induction h generalizing us with
  | done h =>
    cases h' with
    | done h' => exact ⟨rfl, (Prod.mk.inj (h.symm.trans h')).2⟩
    | token h' => exact absurd (Prod.mk.inj (h.symm.trans h')).1 (by simp)
  | token h hts ih =>
    cases h' with
    | done h' => exact absurd (Prod.mk.inj (h.symm.trans h')).1 (by simp)
    | token h' hus =>
      obtain ⟨ht, rfl⟩ := Prod.mk.inj (h.symm.trans h')
      obtain ⟨rfl, hs⟩ := ih hus
      exact ⟨congrArg (· :: _) (Option.some.inj ht), hs⟩

private theorem drains_iff (hs : s.Settled) {ts : List Token} {s' : Scanner} :
    Drains s ts s' ↔ ts = s.remaining ∧ s' = s.finish := by
  constructor
  · exact fun h ↦ h.unique (drains_remaining hs)
  · rintro ⟨rfl, rfl⟩
    exact drains_remaining hs

/-! ## Questions in sequence -/

/-- `Gives s ts s'`: what is to be said of a scanner `s` that has handed out the tokens `ts` and is
now `s'`. -/
structure Gives (s : Scanner) (ts : List Token) (s' : Scanner) : Prop where
  /-- The tokens are taken from what was left, and are the end of input behind that. -/
  tokens_eq : ts = s.remaining.take ts.length ++
    List.replicate (ts.length - s.remaining.length) (.endOfInput s.stop)
  remaining_eq : s'.remaining = s.remaining.drop ts.length
  ended_iff : s'.ended = true ↔ s.ended = true ∨ ∃ t ∈ ts, t.kind = .endOfInput
  stop_eq : s'.stop = s.stop
  settled : s'.Settled

namespace Gives

variable {s' : Scanner} {ts : List Token}

theorem refl (hs : s.Settled) : Gives s [] s where
  tokens_eq := by simp
  remaining_eq := rfl
  ended_iff := by simp
  stop_eq := rfl
  settled := hs

private theorem again (hended : s.ended = true) (h : Gives s ts s') :
    Gives s (.endOfInput s.stop :: ts) s' where
  tokens_eq := by
    have htokens := h.tokens_eq
    rw [remaining_of_ended hended] at htokens ⊢
    simp only [List.take_nil, List.nil_append, List.length_nil, Nat.sub_zero] at htokens ⊢
    rw [List.length_cons, List.replicate_succ, ← htokens]
  remaining_eq := by
    have hremaining := h.remaining_eq
    rw [remaining_of_ended hended, List.drop_nil] at hremaining ⊢
    exact hremaining
  ended_iff := by simp [h.ended_iff, hended]
  stop_eq := h.stop_eq
  settled := h.settled

private theorem taken (hended : s.ended = false) (h : Gives s.next.2 ts s') :
    Gives s (s.next.1 :: ts) s' where
  tokens_eq := by
    have htokens := h.tokens_eq
    rw [stop_next] at htokens
    rw [remaining_eq_cons hended, List.length_cons, List.length_cons, List.take_succ_cons,
      Nat.add_sub_add_right, List.cons_append, ← htokens]
  remaining_eq := by
    rw [h.remaining_eq, remaining_eq_cons hended, List.length_cons, List.drop_succ_cons]
  ended_iff := by
    rw [h.ended_iff, ended_next_iff, hended]
    simp
  stop_eq := h.stop_eq.trans s.stop_next
  settled := h.settled

end Gives

/-- However a scanner is asked, it gives what is left of its source. -/
private theorem gives_handed (hs : s.Settled) (qs : List Question) :
    Gives s (s.handed qs) (s.after qs) := by
  induction qs generalizing s with
  | nil => exact .refl hs
  | cons q qs ih =>
    by_cases hended : s.ended = true
    · cases q with
      | next? =>
        rw [handed, after, List.foldl_cons, ← after, answer, next?_of_ended hended]
        exact ih hs
      | next =>
        rw [handed, after, List.foldl_cons, ← after, answer, next_of_ended hs hended]
        exact .again hended (ih hs)
    · rw [Bool.not_eq_true] at hended
      rw [handed, after, List.foldl_cons, ← after, answer_of_not_ended hended]
      exact .taken hended (ih (settled_next hs))

/-- **Both kinds of question are served from one supply.** Whatever a scanner has been asked since
the start of its source, it has handed out the first tokens of the source in order, and behind the
last one the end of input over and over. It has no answer to `next?` exactly if an end of input is
among what it has handed out, and answers `next` with the end of input from then on. What draining
gets are the tokens that have not been handed out. -/
theorem questions_interleaved (source : String) (qs : List Question) :
    let s := (start source).after qs
    let ts := (start source).handed qs
    ts = (Token.scan source).take ts.length ++ List.replicate
        (ts.length - (Token.scan source).length) (.endOfInput source.utf8ByteSize) ∧
      (s.next?.1 = none ↔ ∃ t ∈ ts, t.kind = .endOfInput) ∧
      ((∃ t ∈ ts, t.kind = .endOfInput) → s.next.1 = .endOfInput source.utf8ByteSize) ∧
      ∀ us s', Drains s us s' ↔ us = (Token.scan source).drop ts.length ∧ s' = s.finish := by
  intro s ts
  have hstart : (start source).Settled := nofun
  have hgives : Gives (start source) ts s := gives_handed hstart qs
  have hstop : (start source).stop = source.utf8ByteSize :=
    (Nat.zero_add _).trans (byteLength_toList source)
  have hended : s.ended = true ↔ ∃ t ∈ ts, t.kind = .endOfInput :=
    hgives.ended_iff.trans (or_iff_right Bool.false_ne_true)
  refine ⟨?_, ?_, fun h ↦ ?_, fun us s' ↦ ?_⟩
  · rw [← remaining_start, ← hstop]
    exact hgives.tokens_eq
  · rw [← hended]
    by_cases h : s.ended = true
    · simp [next?_of_ended h, h]
    · simp [next?_of_not_ended ((Bool.not_eq_true _).mp h), h]
  · rw [next_of_ended hgives.settled (hended.mpr h), hgives.stop_eq, hstop]
  · rw [drains_iff hgives.settled, hgives.remaining_eq, remaining_start]

example : (start ";").handed [.next, .next?, .next?, .next] =
    [⟨.separator, ";", ⟨0, 1⟩⟩, .endOfInput 1, .endOfInput 1] := by decide +kernel

end Kay.Scanner
