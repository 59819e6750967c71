import Kay.Proofs.Token.Scan
import Kay.Proofs.Token.Seam
import Kay.Text.Pieces

/-!
# Gaps that are put into a source

White space and comments in front of a token change nothing but where tokens stand: those behind the
new gap move by its length (`scan_inserted`).

The text in front of a token has the tokens in front of it, since a token that is the longest one
stays so when less follows (`IsLongest.of_append`), and it ends with a gap that is closed. The new
gap goes on from there, and the text is cut in two at it. Behind the last token there may be an open
comment instead, which takes the new gap in, up to its first line feed (`FinalGap.append_blank`).
-/

namespace Kay

open Text Lexeme

/-! ## Texts put into a source -/

/-- A source with a text put in at the given byte. -/
def inserted (offset : Nat) (text : List Char) (source : String) : String :=
  String.ofList (takeBytes offset source.toList ++ (text ++ dropBytes offset source.toList))

/-- A token that stands the given number of bytes further on. -/
def Token.movedBy (n : Nat) (t : Token) : Token :=
  { t with span := ⟨t.span.start + n, t.span.stop + n⟩ }

theorem place_add (offset n : Nat) (ls : List Lexeme) :
    Token.place (offset + n) ls = (Token.place offset ls).map (Token.movedBy n) := by
  induction ls generalizing offset with
  | nil => rfl
  | cons l ls ih =>
    have hmoved : Token.ofLexeme (offset + n) l = (Token.ofLexeme offset l).movedBy n := by
      simp only [Token.ofLexeme, Token.movedBy, Nat.add_right_comm]
    rw [Token.place, Token.place, List.map_cons, hmoved, ← ih]
    rfl

/-! ## Gaps that go on -/

theorem IsLongest.of_append {kind : TokenKind} {text rest rest' : List Char}
    (h : IsLongest kind text (rest ++ rest')) : IsLongest kind text rest where
  admissible := h.admissible
  maximal k u hu hpre := h.maximal k u hu (hpre.trans ⟨rest', List.append_assoc ..⟩)
  not_comment hpre := h.not_comment (hpre.trans ⟨rest', List.append_assoc ..⟩)

private theorem Gap.of_lineFeed {gap body rest : List Char} (h : Gap gap) (hbody : '\n' ∉ body)
    (heq : gap = body ++ '\n' :: rest) : Gap rest := by
  induction h generalizing body with
  | nil => exact absurd heq (by simp)
  | blank hc h ih =>
    cases body with
    | nil =>
      obtain ⟨-, rfl⟩ := List.cons.inj heq
      exact h
    | cons d body =>
      rw [List.mem_cons, not_or] at hbody
      exact ih hbody.2 (List.cons.inj heq).2
  | @comment body' gap hbody' h ih =>
    -- The line feed is the one that ends the comment, as neither side has one before it.
    have hnot : '\n' ∉ '/' :: '/' :: body' := by simpa using hbody'
    obtain ⟨-, rfl⟩ := cut_unique hnot hbody heq
    exact h

theorem FinalGap.append_blank {gap gap' : List Char} {b : Char} (h : FinalGap gap)
    (hb : isBlank b = true) (h' : Gap gap') : FinalGap (gap ++ b :: gap') := by
  have hw : Gap (b :: gap') := .blank hb h'
  cases h with
  | closed h => exact .closed (h.append hw)
  | @comment gap body h hbody =>
    rw [List.append_assoc, List.cons_append, List.cons_append]
    rcases exists_comment_body (b :: gap') with hopen | ⟨u, v, hu, heq⟩
    · exact .comment h (List.not_mem_append hbody hopen)
    · -- The open comment ends at the first line feed.
      rw [heq, ← List.append_assoc body]
      have hbody' : '\n' ∉ body ++ u := List.not_mem_append hbody hu
      exact .closed (h.append (.comment hbody' (hw.of_lineFeed hu heq)))

/-! ## The text in front of a token -/

/-- A text can be cut where one of its tokens starts: its tokens are those of the two parts, and the
gap at the end of the first part is closed. -/
private theorem exists_cut_place {offset : Nat} {cs : List Char} {t : Token}
    (h : t ∈ Token.place offset (lexemes cs)) : ∃ pre post, cs = pre ++ post ∧
      t.span.start = offset + byteLength pre ∧ Gap (lastGap pre) ∧
      Token.place offset (lexemes cs) =
        Token.place offset (lexemes pre) ++
          Token.place (offset + byteLength pre) (lexemes post) := by
  fun_induction lexemes cs generalizing offset with
  | case1 cs hnone => exact absurd h (by simp [Token.place])
  | case2 cs l rest hsome ih =>
    obtain ⟨rfl, hgap, hlong⟩ := first?_eq_some_iff.mp hsome
    rcases List.mem_cons.mp h with rfl | h
    · have hnone : first? l.gap = none := first?_of_finalGap (.closed hgap)
      refine ⟨l.gap, l.text ++ rest, rfl, rfl, (lastGap_of_none hnone).symm ▸ hgap, ?_⟩
      rw [← place_lexemes_of_gap hgap, lexemes_of_some hsome, lexemes_of_none hnone]
      rfl
    · obtain ⟨pre, post, rfl, hstart, hclosed, hplace⟩ := ih h
      have hfirst : first? (l.gap ++ (l.text ++ pre)) = some (l, pre) :=
        first?_eq_some_iff.mpr ⟨rfl, hgap, hlong.of_append⟩
      refine ⟨l.gap ++ (l.text ++ pre), post, by simp, ?_, lastGap_of_some hfirst ▸ hclosed, ?_⟩
      · rw [hstart]
        simp only [Token.ofLexeme, byteLength_append, Nat.add_assoc]
      · rw [lexemes_of_some hfirst, Token.place, Token.place, hplace]
        simp only [Token.ofLexeme, byteLength_append, Nat.add_assoc, List.cons_append]

/-! ## Gaps between tokens -/

private theorem map_movedBy_append {n bound : Nat} {ts us : List Token}
    (ht : ∀ t ∈ ts, t.span.start < bound) (hu : ∀ u ∈ us, bound ≤ u.span.start) :
    (ts ++ us).map (fun u ↦ if u.span.start < bound then u else u.movedBy n)
      = ts ++ us.map (Token.movedBy n) := by
  rw [List.map_append]
  refine congrArg₂ _ ?_ (List.map_congr_left fun u hmem ↦ if_neg (Nat.not_lt.mpr (hu u hmem)))
  exact (List.map_congr_left fun t hmem ↦ if_pos (ht t hmem)).trans (List.map_id ts)

private theorem exists_cut_scan {source : String} {t : Token} (ht : t ∈ Token.scan source) :
    ∃ pre post, source.toList = pre ++ post ∧ byteLength pre = t.span.start ∧
      Token.scan source = Token.place 0 (lexemes pre) ++
        (Token.place (byteLength pre) (lexemes post) ++ [.endOfInput (byteLength (pre ++ post))]) ∧
      ∀ {b : Char} {gap : List Char}, isBlank b = true → Gap gap →
        Token.place 0 (lexemes (pre ++ (b :: gap ++ post))) = Token.place 0 (lexemes pre) ++
          Token.place (byteLength pre + byteLength (b :: gap)) (lexemes post) := by
  rw [Token.scan] at ht
  rcases List.mem_append.mp ht with ht | ht
  · obtain ⟨pre, post, hsource, hstart, hclosed, hplace⟩ := exists_cut_place ht
    rw [Nat.zero_add] at hstart hplace
    refine ⟨pre, post, hsource, hstart.symm, ?_, fun hb hgap ↦ ?_⟩
    · rw [Token.scan, hplace, List.append_assoc, hsource]
    · rw [place_lexemes_append hb (hclosed.append (.blank hb hgap)), byteLength_append,
        Nat.zero_add]
  · -- The end of input: all tokens stand in front of it.
    obtain rfl := List.mem_singleton.mp ht
    have hnil : lexemes [] = [] := lexemes_of_none (first?_of_finalGap (.closed .nil))
    refine ⟨source.toList, [], (List.append_nil _).symm, rfl, ?_, fun hb hgap ↦ ?_⟩
    · rw [Token.scan, hnil, List.append_nil]
      rfl
    · have hnone := first?_of_finalGap ((finalGap_lastGap source.toList).append_blank hb hgap)
      rw [List.append_nil, lexemes_append_blank hb, lexemes_of_none hnone, hnil, Token.place]
      rw [List.append_nil, List.append_nil]

/-- **Gaps between tokens say nothing.** White space and comments that are put in where a token
starts, or where the source ends, leave the kinds and the texts of all tokens as they are. The
tokens that start before keep their places, all others move by the length of what was put in. A gap
has to start with white space, since a slash could join the token in front. -/
theorem scan_inserted {source : String} {t : Token} (ht : t ∈ Token.scan source) {b : Char}
    (hb : isBlank b = true) {gap : List Char} (hgap : Gap gap) :
    byteLength (takeBytes t.span.start source.toList) = t.span.start ∧
      Token.scan (inserted t.span.start (b :: gap) source) = (Token.scan source).map fun u ↦
        if u.span.start < t.span.start then u else u.movedBy (byteLength (b :: gap)) := by
  obtain ⟨pre, post, hsource, hstart, hscan, hplace⟩ := exists_cut_scan ht
  have hpre := tokenized_place [] pre
  have hbefore : ∀ u ∈ Token.place 0 (lexemes pre), u.span.start < byteLength pre := fun u hu ↦
    (hpre.start_lt_stop u hu).trans_le (hpre.stop_le u hu)
  have hbehind : ∀ u ∈ Token.place (byteLength pre) (lexemes post) ++
      [.endOfInput (byteLength (pre ++ post))], byteLength pre ≤ u.span.start := by
    intro u hu
    rcases List.mem_append.mp hu with hu | hu
    · exact (tokenized_place pre post).le_start u hu
    · rw [List.mem_singleton.mp hu, byteLength_append]
      exact Nat.le_add_right _ _
  rw [inserted, ← hstart, hsource, takeBytes_append, dropBytes_append]
  refine ⟨rfl, ?_⟩
  rw [hscan, map_movedBy_append hbefore hbehind, Token.scan, String.toList_ofList, hplace hb hgap,
    place_add, List.map_append, List.append_assoc]
  simp only [byteLength_append, Token.endOfInput, Token.movedBy, List.map_cons, List.map_nil,
    Nat.add_comm, Nat.add_assoc]

/-- The open comment at the end of `x/2//c` takes in the comment that is put in behind it. -/
theorem scan_inserted_openComment :
    .endOfInput 6 ∈ Token.scan "x/2//c" ∧ Gap "//d\n".toList ∧
      Token.scan "x/2//c //d\n" = (Token.scan "x/2//c").map fun u ↦
        if u.span.start < 6 then u else u.movedBy 5 := by
  have hend : .endOfInput 6 ∈ Token.scan "x/2//c" := by decide +kernel
  have hgap : Gap ('/' :: '/' :: (['d'] ++ '\n' :: [])) := .comment (by decide) .nil
  exact ⟨hend, hgap, (scan_inserted hend (b := ' ') rfl hgap).2⟩

end Kay
