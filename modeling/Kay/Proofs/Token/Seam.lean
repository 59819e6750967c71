import Kay.Proofs.Token.Spaced

/-!
# Seams

What the tokens of a text are when a gap stands somewhere inside it. A token ends where the
character behind it does not join it (`isLongest_iff`), and white space joins no token. So a gap
that starts with white space cuts a text in two: the tokens of the whole are those of the part in
front of it, and behind them those of the rest, each where it stands (`place_lexemes_append`).

Only an open comment at the end of the first part can reach over the seam. A line feed closes it,
so that a text can be cut at any line feed.
-/

namespace Kay

open Text Lexeme

/-! ## Where a token ends -/

/-- The longest token at its place is one that the character behind it does not join. -/
theorem isLongest_iff {kind : TokenKind} {c : Char} {cs rest : List Char} :
    IsLongest kind (c :: cs) rest ↔
      Admissible kind (c :: cs) ∧ ∀ d ∈ rest.head?, joins c cs d = false := by
  refine ⟨fun h ↦ ⟨h.admissible, fun d hd ↦ ?_⟩, fun h ↦ h.1.isLongest h.2⟩
  obtain ⟨ds, rfl⟩ := List.head?_eq_some_iff.mp hd
  rw [← Bool.not_eq_true]
  intro hjoins
  -- With the character behind it, the text would be a longer token, or the start of a comment.
  have hlonger : ∀ k, ¬ Admissible k (c :: (cs ++ [d])) := fun k hk ↦ by
    have hlen := h.maximal k _ hk ⟨ds, by simp⟩
    simp only [List.length_cons, List.length_append, List.length_nil] at hlen
    omega
  obtain ⟨c', cs', heq, hb, hfam⟩ := h.admissible.family
  obtain ⟨rfl, rfl⟩ := List.cons.inj heq
  rcases hfam with ⟨hl, hall⟩ | ⟨hdig, hall⟩ | ⟨hl, hdig, hcs⟩
  · rw [joins, if_pos hl] at hjoins
    refine hlonger _ (admissible_wordKind ⟨c, _, rfl, hl, fun e he ↦ ?_⟩)
    rcases List.mem_append.mp he with he | he
    · exact hall e he
    · exact List.mem_singleton.mp he ▸ hjoins
  · rw [joins, if_neg (ne_true_of_eq_false (isLetter_eq_false_of_isAsciiDigit hdig)),
      if_pos hdig] at hjoins
    refine hlonger .literal (.literal (List.cons_ne_nil _ _) fun e he ↦ ?_)
    rcases List.mem_cons.mp he with rfl | he
    · exact hdig
    · rcases List.mem_append.mp he with he | he
      · exact hall e he
      · exact List.mem_singleton.mp he ▸ hjoins
  · rw [joins, if_neg (ne_true_of_eq_false hl), if_neg (ne_true_of_eq_false hdig)] at hjoins
    simp only [Bool.and_eq_true, decide_eq_true_eq, Bool.or_eq_true] at hjoins
    obtain ⟨rfl, hpair | ⟨rfl, rfl⟩⟩ := hjoins
    · exact hlonger .operator (.operator (of_decide_eq_true hpair))
    · exact h.not_comment ⟨ds, rfl⟩

theorem IsLongest.append_blank {kind : TokenKind} {text rest : List Char}
    (h : IsLongest kind text rest) {b : Char} (hb : isBlank b = true) (cs : List Char) :
    IsLongest kind text (rest ++ b :: cs) := by
  obtain ⟨c, v, rfl, -⟩ := h.admissible.family
  obtain ⟨hadmissible, hrest⟩ := isLongest_iff.mp h
  refine hadmissible.isLongest fun d hd ↦ ?_
  cases rest with
  | nil =>
    obtain rfl := Option.some.inj hd
    exact joins_eq_false_of_isBlank hb
  | cons e rest => exact hrest d hd

/-! ## Gaps in sequence -/

theorem Gap.append {gap gap' : List Char} (h : Gap gap) (h' : Gap gap') : Gap (gap ++ gap') := by
  induction h with
  | nil => exact h'
  | blank hc _ ih => exact .blank hc ih
  | @comment body gap hbody _ ih =>
    rw [List.cons_append, List.cons_append, List.append_assoc, List.cons_append]
    exact .comment hbody ih

/-- A line feed closes the comment that a final gap may end with. -/
private theorem FinalGap.append_lineFeed {gap : List Char} (h : FinalGap gap) :
    Gap (gap ++ ['\n']) := by
  cases h with
  | closed h => exact h.append (.blank (by decide) .nil)
  | @comment gap body h hbody =>
    rw [List.append_assoc]
    exact h.append (.comment hbody .nil)

private theorem Lexeme.first?_append_of_gap {gap : List Char} (h : Gap gap) (cs : List Char) :
    first? (gap ++ cs)
      = (first? cs).map fun step ↦ ({ step.1 with gap := gap ++ step.1.gap }, step.2) := by
  rw [first?, first?, splitGap_append_of_gap h]
  rcases splitGap false cs with ⟨gap', _ | ⟨c, rest⟩⟩ <;> rfl

theorem place_lexemes_of_gap {gap : List Char} (h : Gap gap) (offset : Nat) (cs : List Char) :
    Token.place offset (lexemes (gap ++ cs))
      = Token.place (offset + byteLength gap) (lexemes cs) := by
  have hfirst := first?_append_of_gap h cs
  cases hcs : first? cs with
  | none =>
    rw [hcs] at hfirst
    rw [lexemes_of_none hcs, lexemes_of_none hfirst, Token.place, Token.place]
  | some step =>
    rw [hcs, Option.map_some] at hfirst
    have hmoved : Token.ofLexeme offset { step.1 with gap := gap ++ step.1.gap }
        = Token.ofLexeme (offset + byteLength gap) step.1 := by
      simp only [Token.ofLexeme, byteLength_append, Nat.add_assoc]
    rw [lexemes_of_some hcs, lexemes_of_some hfirst, Token.place, Token.place, hmoved]

/-! ## Cutting a text at a gap -/

theorem lastGap_of_none {cs : List Char} (h : first? cs = none) : lastGap cs = cs := by
  rw [lastGap]
  split <;> simp_all

theorem lastGap_of_some {cs rest : List Char} {l : Lexeme} (h : first? cs = some (l, rest)) :
    lastGap cs = lastGap rest := by
  rw [lastGap]
  split
  · simp_all
  · next heq =>
    rw [h, Option.some.injEq, Prod.mk.injEq] at heq
    rw [heq.2]

theorem finalGap_lastGap (cs : List Char) : FinalGap (lastGap cs) := by
  fun_induction lastGap cs with
  | case1 cs hnone => exact first?_eq_none_iff.mp hnone
  | case2 cs l rest hsome ih => exact ih

/-- The lexemes of a text are kept when something is put in behind that starts with white space.
What follows them is what can be read from the last gap on. -/
theorem lexemes_append_blank {b : Char} (hb : isBlank b = true) (cs ds : List Char) :
    lexemes (cs ++ b :: ds) = lexemes cs ++ lexemes (lastGap cs ++ b :: ds) := by
  fun_induction lexemes cs with
  | case1 cs hnone => rw [lastGap_of_none hnone, List.nil_append]
  | case2 cs l rest hsome ih =>
    obtain ⟨rfl, hgap, hlong⟩ := first?_eq_some_iff.mp hsome
    have hfirst : first? (l.gap ++ (l.text ++ rest) ++ b :: ds) = some (l, rest ++ b :: ds) :=
      first?_eq_some_iff.mpr ⟨by simp only [List.append_assoc], hgap, hlong.append_blank hb ds⟩
    rw [lexemes_of_some hfirst, ih, lastGap_of_some hsome, List.cons_append]

private theorem place_append (offset : Nat) (ls ms : List Lexeme) :
    Token.place offset (ls ++ ms) = Token.place offset ls
      ++ Token.place (offset + byteLength (ls.flatMap fun l ↦ l.gap ++ l.text)) ms := by
  induction ls generalizing offset with
  | nil => rfl
  | cons l ls ih =>
    rw [List.cons_append, Token.place, Token.place, ih]
    simp only [Token.ofLexeme, List.flatMap_cons, byteLength_append, Nat.add_assoc,
      List.cons_append]

/-- A gap that starts with white space, and that no open comment in front of it takes in, cuts a
text in two. -/
theorem place_lexemes_append {cs gap : List Char} {b : Char} (hb : isBlank b = true)
    (h : Gap (lastGap cs ++ b :: gap)) (offset : Nat) (ds : List Char) :
    Token.place offset (lexemes (cs ++ (b :: gap ++ ds)))
      = Token.place offset (lexemes cs)
        ++ Token.place (offset + byteLength (cs ++ b :: gap)) (lexemes ds) := by
  have hbytes : byteLength cs
      = byteLength ((lexemes cs).flatMap fun l ↦ l.gap ++ l.text) + byteLength (lastGap cs) := by
    rw [← byteLength_append, flatten_lexemes]
  have hgap : lastGap cs ++ b :: (gap ++ ds) = (lastGap cs ++ b :: gap) ++ ds := by simp
  rw [List.cons_append, lexemes_append_blank hb, place_append, hgap, place_lexemes_of_gap h,
    byteLength_append cs, hbytes]
  simp only [byteLength_append, Nat.add_assoc]

theorem place_lexemes_lineFeed (cs ds : List Char) (offset : Nat) :
    Token.place offset (lexemes (cs ++ '\n' :: ds))
      = Token.place offset (lexemes cs)
        ++ Token.place (offset + byteLength cs + 1) (lexemes ds) := by
  have h := place_lexemes_append (by decide) (finalGap_lastGap cs).append_lineFeed offset ds
  rw [byteLength_append, ← Nat.add_assoc] at h
  exact h

theorem terminals_lineFeed (cs ds : List Char) :
    terminals (cs ++ '\n' :: ds) = terminals cs ++ terminals ds := by
  have h := congrArg (List.map Token.terminal) (place_lexemes_lineFeed cs ds 0)
  rwa [List.map_append, map_terminal_place, map_terminal_place, map_terminal_place] at h

end Kay
