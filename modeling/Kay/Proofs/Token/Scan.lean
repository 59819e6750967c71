import Kay.Proofs.Token.Lexical

/-!
# What a scan is

The lexical grammar says what one token may look like; here it is put together for a whole source.
`IsScan source ts` lists what makes `ts` the tokens of a source, in terms of the source alone:
where the spans lie, that they cut out the texts, what stands between them, and that every token is
the longest one at its place.

The work is done once, on `Tokenized`, which follows the source from the left and remembers what
has been read. Offsets are byte lengths of what has been read, so no field of `IsScan` needs an
arithmetic of its own.
-/

namespace Kay

open Text

/-! ## Bytes of strings -/

private theorem utf8ByteSize_ofList (cs : List Char) :
    (String.ofList cs).utf8ByteSize = byteLength cs := by
  induction cs with
  | nil => rfl
  | cons c cs ih =>
    rw [← List.singleton_append, String.ofList_append, String.utf8ByteSize_append, ih,
      ← String.singleton_eq_ofList, String.utf8ByteSize_singleton, byteLength_append]
    simp

theorem byteLength_toList (s : String) : byteLength s.toList = s.utf8ByteSize := by
  rw [← utf8ByteSize_ofList, String.ofList_toList]

theorem isValid_byteLength {source : String} {pre post : List Char}
    (h : source.toList = pre ++ post) :
    (⟨byteLength pre⟩ : String.Pos.Raw).IsValid source := by
  rw [String.Pos.Raw.isValid_iff_exists_append]
  refine ⟨String.ofList pre, String.ofList post, ?_, ?_⟩
  · rw [← String.ofList_append, ← h, String.ofList_toList]
  · rw [← utf8ByteSize_ofList]
    rfl

private theorem extract_byteLength {source : String} {pre mid post : List Char}
    (h : source.toList = pre ++ (mid ++ post)) :
    source.toByteArray.extract (byteLength pre) (byteLength (pre ++ mid))
      = (String.ofList mid).toByteArray := by
  have hsource : source = String.ofList pre ++ (String.ofList mid ++ String.ofList post) := by
    rw [← String.ofList_append, ← String.ofList_append, ← h, String.ofList_toList]
  have hsize : ∀ cs, (String.ofList cs).toByteArray.size = byteLength cs := utf8ByteSize_ofList
  rw [hsource, String.toByteArray_append, String.toByteArray_append, byteLength_append, ← hsize pre,
    ← hsize mid, ← Nat.add_zero (ByteArray.size (String.ofList pre).toByteArray), Nat.add_assoc,
    ByteArray.extract_append_size_add, Nat.zero_add, ByteArray.extract_append_eq_left rfl]

/-! ## The tokens of a source, from the left -/

/-- `Tokenized pre cs ts`: where `pre` has been read and `cs` is ahead, the tokens `ts` are read. -/
inductive Tokenized : List Char → List Char → List Token → Prop
  | done {pre gap : List Char} (h : FinalGap gap) : Tokenized pre gap []
  | token {pre gap text rest : List Char} {kind : TokenKind} {ts : List Token} (hgap : Gap gap)
      (h : IsLongest kind text rest) (hts : Tokenized (pre ++ (gap ++ text)) rest ts) :
      Tokenized pre (gap ++ (text ++ rest))
        (⟨kind, String.ofList text, ⟨byteLength (pre ++ gap), byteLength (pre ++ (gap ++ text))⟩⟩ ::
          ts)

/-- What the scanner does is what `Tokenized` says. -/
theorem tokenized_place (pre cs : List Char) :
    Tokenized pre cs (Token.place (byteLength pre) (lexemes cs)) := by
  fun_induction lexemes cs generalizing pre with
  | case1 cs h => exact .done (Lexeme.first?_eq_none_iff.mp h)
  | case2 cs l rest h ih =>
    obtain ⟨rfl, hgap, hlong⟩ := Lexeme.first?_eq_some_iff.mp h
    have hih := ih (pre ++ (l.gap ++ l.text))
    have hstop : byteLength (pre ++ (l.gap ++ l.text))
        = byteLength pre + byteLength l.gap + byteLength l.text := by
      rw [byteLength_append, byteLength_append, Nat.add_assoc]
    rw [Token.place, Token.ofLexeme, ← hstop, ← byteLength_append]
    exact .token hgap hlong hih

/-- The offset behind the last of some tokens, and the given one where there are none. -/
def stopAfter : Nat → List Token → Nat
  | n, [] => n
  | _, t :: ts => stopAfter t.span.stop ts

/-! ## The properties of a scan -/

/-- What makes a list the tokens of a source, the end of input left out. -/
structure IsScan (source : String) (ts : List Token) : Prop where
  /-- None of them is an end of input. -/
  kind_ne : ∀ t ∈ ts, t.kind ≠ .endOfInput
  /-- No token is empty. -/
  start_lt_stop : ∀ t ∈ ts, t.span.start < t.span.stop
  /-- Tokens stand in order and do not overlap. -/
  stop_le_start : ts.Pairwise fun t u ↦ t.span.stop ≤ u.span.start
  /-- Tokens begin and end between characters. -/
  isValid : ∀ t ∈ ts, (⟨t.span.start⟩ : String.Pos.Raw).IsValid source ∧
    (⟨t.span.stop⟩ : String.Pos.Raw).IsValid source
  /-- The text of a token is what its span cuts out of the source. -/
  extract_eq : ∀ t ∈ ts,
    source.toByteArray.extract t.span.start t.span.stop = t.text.toByteArray
  /-- From the token before, or from the start of the source, up to a token there is a gap, and the
  token is the longest one where the gap ends. -/
  longest : ∀ before t after, ts = before ++ t :: after → ∃ pre gap post,
    source.toList = pre ++ (gap ++ (t.text.toList ++ post)) ∧
      byteLength pre = stopAfter 0 before ∧ byteLength (pre ++ gap) = t.span.start ∧
      Gap gap ∧ IsLongest t.kind t.text.toList post
  /-- Behind the last token there is a final gap. -/
  finalGap : ∃ pre gap, source.toList = pre ++ gap ∧ byteLength pre = stopAfter 0 ts ∧
    FinalGap gap

namespace Tokenized

variable {source : String} {pre cs : List Char} {ts : List Token}

theorem kind_ne (h : Tokenized pre cs ts) : ∀ t ∈ ts, t.kind ≠ .endOfInput := by
  induction h with
  | done h => simp
  | token hgap h _ ih =>
    rw [List.forall_mem_cons]
    exact ⟨h.admissible.ne_endOfInput, ih⟩

theorem start_lt_stop (h : Tokenized pre cs ts) : ∀ t ∈ ts, t.span.start < t.span.stop := by
  induction h with
  | done h => simp
  | @token pre gap text rest kind ts hgap h _ ih =>
    rw [List.forall_mem_cons]
    refine ⟨?_, ih⟩
    obtain ⟨c, cs, rfl, -⟩ := h.admissible.family
    have := c.utf8Size_pos
    simp only [byteLength_append, byteLength_cons]
    omega

theorem le_start (h : Tokenized pre cs ts) : ∀ t ∈ ts, byteLength pre ≤ t.span.start := by
  induction h with
  | done h => simp
  | @token pre gap text rest kind ts hgap h _ ih =>
    rw [List.forall_mem_cons]
    refine ⟨?_, fun t ht ↦ ?_⟩
    · simp only [byteLength_append]
      omega
    · have := ih t ht
      simp only [byteLength_append] at this
      omega

private theorem stop_le_start (h : Tokenized pre cs ts) :
    ts.Pairwise fun t u ↦ t.span.stop ≤ u.span.start := by
  induction h with
  | done h => exact .nil
  | token hgap h hts ih => exact .cons hts.le_start ih

theorem stop_le (h : Tokenized pre cs ts) :
    ∀ t ∈ ts, t.span.stop ≤ byteLength (pre ++ cs) := by
  induction h with
  | done h => simp
  | @token pre gap text rest kind ts hgap h _ ih =>
    rw [List.forall_mem_cons]
    refine ⟨?_, fun t ht ↦ ?_⟩
    · simp only [byteLength_append]
      omega
    · have := ih t ht
      simp only [byteLength_append] at this ⊢
      omega

/-- What has been read and what is ahead can be cut in front of a token and behind it, where its
span says. -/
theorem exists_cut (h : Tokenized pre cs ts) : ∀ t ∈ ts, ∃ before after,
    pre ++ cs = before ++ (t.text.toList ++ after) ∧
      t.span = ⟨byteLength before, byteLength (before ++ t.text.toList)⟩ := by
  induction h with
  | done h => simp
  | @token pre gap text rest kind ts hgap h _ ih =>
    rw [List.forall_mem_cons]
    refine ⟨⟨pre ++ gap, rest, ?_, ?_⟩, fun t ht ↦ ?_⟩
    · rw [String.toList_ofList, List.append_assoc]
    · rw [String.toList_ofList, List.append_assoc]
    · obtain ⟨before, after, hcut, hspan⟩ := ih t ht
      refine ⟨before, after, ?_, hspan⟩
      rw [← hcut, List.append_assoc, List.append_assoc]

private theorem isValid (h : Tokenized pre cs ts) (hsource : source.toList = pre ++ cs) :
    ∀ t ∈ ts, (⟨t.span.start⟩ : String.Pos.Raw).IsValid source ∧
      (⟨t.span.stop⟩ : String.Pos.Raw).IsValid source := by
  intro t ht
  obtain ⟨before, after, hcut, hspan⟩ := h.exists_cut t ht
  have hstop : source.toList = (before ++ t.text.toList) ++ after := by
    rw [hsource, hcut, List.append_assoc]
  rw [hspan]
  exact ⟨isValid_byteLength (hsource.trans hcut), isValid_byteLength hstop⟩

private theorem extract_eq (h : Tokenized pre cs ts) (hsource : source.toList = pre ++ cs) :
    ∀ t ∈ ts, source.toByteArray.extract t.span.start t.span.stop = t.text.toByteArray := by
  intro t ht
  obtain ⟨before, after, hcut, hspan⟩ := h.exists_cut t ht
  rw [hspan, extract_byteLength (hsource.trans hcut), String.ofList_toList]

theorem longest (h : Tokenized pre cs ts) : ∀ before t after, ts = before ++ t :: after →
    ∃ pre' gap post, pre ++ cs = pre' ++ (gap ++ (t.text.toList ++ post)) ∧
      byteLength pre' = stopAfter (byteLength pre) before ∧
      byteLength (pre' ++ gap) = t.span.start ∧ Gap gap ∧
      IsLongest t.kind t.text.toList post := by
  induction h with
  | done h =>
    intro before t after heq
    exact absurd heq (by simp)
  | @token pre gap text rest kind ts hgap h _ ih =>
    intro before t after heq
    cases before with
    | nil =>
      rw [List.nil_append, List.cons.injEq] at heq
      obtain ⟨rfl, rfl⟩ := heq
      exact ⟨pre, gap, rest, by rw [String.toList_ofList], rfl, rfl, hgap,
        by rwa [String.toList_ofList]⟩
    | cons u before =>
      rw [List.cons_append, List.cons.injEq] at heq
      obtain ⟨rfl, rfl⟩ := heq
      obtain ⟨pre', gap', post, hpre, hrest⟩ := ih before t after rfl
      exact ⟨pre', gap', post, by rw [← hpre]; simp, hrest⟩

private theorem finalGap (h : Tokenized pre cs ts) : ∃ pre' gap, pre ++ cs = pre' ++ gap ∧
    byteLength pre' = stopAfter (byteLength pre) ts ∧ FinalGap gap := by
  induction h with
  | @done pre gap h => exact ⟨pre, gap, rfl, rfl, h⟩
  | @token pre gap text rest kind ts hgap h _ ih =>
    obtain ⟨pre', gap', hpre, hrest⟩ := ih
    exact ⟨pre', gap', by rw [← hpre]; simp, hrest⟩

/-- What is read from the start of a source to its end is a scan of it. -/
theorem isScan (h : Tokenized [] source.toList ts) : IsScan source ts where
  kind_ne := h.kind_ne
  start_lt_stop := h.start_lt_stop
  stop_le_start := h.stop_le_start
  isValid := h.isValid rfl
  extract_eq := h.extract_eq rfl
  longest := h.longest
  finalGap := h.finalGap

end Tokenized

/-- **The scanner is exact and lossless.** The tokens of a source are a scan of it with one end of
input behind, where the source ends; and there is no character at which nothing could be read. -/
theorem scan_isScan (source : String) :
    (∃ ts, Token.scan source = ts ++ [⟨.endOfInput, "", ⟨source.utf8ByteSize, source.utf8ByteSize⟩⟩]
      ∧ IsScan source ts) ∧
    ∀ pre c post, source.toList = pre ++ c :: post →
      isBlank c = true ∨ ∃ k u, Admissible k u ∧ u <+: c :: post := by
  refine ⟨⟨Token.place 0 (lexemes source.toList), ?_, ?_⟩, ?_⟩
  · rw [Token.scan, Token.endOfInput, byteLength_toList]
  · exact (tokenized_place [] source.toList).isScan
  · intro pre c post _
    by_cases hb : isBlank c = true
    · exact .inl hb
    · exact .inr (exists_admissible_of_not_blank ((Bool.not_eq_true _).mp hb) post)

end Kay
