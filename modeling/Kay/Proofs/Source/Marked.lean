import Kay.Proofs.Grammar.Placement
import Kay.Proofs.Token.Spaced
import Kay.Source.Diagnostic

/-!
# Marks of errors

An error is placed in bytes and shown in characters. The mark of an error is the token at which the
error was found, or the last character if that is the end of input (`error_marked`).

Both come from cutting the text at the token: what stands in front of it has as many bytes as the
span says (`exists_cut_of_mem_scan`) and as many characters as are counted (`charOffset?_append`).
So no offset of an error cuts a character, and the count never has to be guessed.
-/

namespace Kay

open Text

/-! ## Counting characters -/

theorem charOffset?_append (pre post : List Char) :
    charOffset? (pre ++ post) (byteLength pre) = some pre.length := by
  induction pre with
  | nil => rw [byteLength_nil, charOffset?, List.length_nil]
  | cons c pre ih =>
    obtain ⟨n, hn⟩ := Nat.exists_eq_succ_of_ne_zero (Nat.ne_of_gt c.utf8Size_pos)
    have hbytes : byteLength (c :: pre) = (n + byteLength pre) + 1 := by
      rw [byteLength_cons, hn]
      omega
    have hrest : n + byteLength pre + 1 - c.utf8Size = byteLength pre := by omega
    rw [List.cons_append, hbytes, charOffset?, if_pos (by omega), hrest, ih]
    rfl

private theorem charOffset_append (pre post : List Char) :
    charOffset (pre ++ post) (byteLength pre) = pre.length := by
  rw [charOffset, charOffset?_append, Option.getD_some]

/-! ## Marks -/

private theorem marked_append (pre post : List Char) {text : List Char} (hne : text ≠ []) :
    marked (pre ++ (text ++ post)) ⟨byteLength pre, byteLength (pre ++ text)⟩ =
      (pre.length, (pre ++ text).length) := by
  have hstop : charOffset (pre ++ (text ++ post)) (byteLength (pre ++ text)) =
      (pre ++ text).length := by
    rw [← List.append_assoc, charOffset_append]
  have hpos : 0 < text.length := List.length_pos_iff.mpr hne
  rw [marked, charOffset_append, hstop, clamp, Prod.mk.injEq]
  simp only [List.length_append]
  omega

private theorem marked_end {cs : List Char} (hne : cs ≠ []) :
    marked cs ⟨byteLength cs, byteLength cs⟩ = (cs.length - 1, cs.length) := by
  have hoffset : charOffset cs (byteLength cs) = cs.length := by
    rw [← charOffset_append cs [], List.append_nil]
  have hpos : 0 < cs.length := List.length_pos_iff.mpr hne
  rw [marked, hoffset, clamp, Prod.mk.injEq]
  omega

/-! ## Tokens in their source -/

/-- A source can be cut in front of a token and behind it, the end of input among them. -/
theorem exists_cut_of_mem_scan {source : String} {t : Token} (ht : t ∈ Token.scan source) :
    ∃ before after, source.toList = before ++ (t.text.toList ++ after) ∧
      t.span = ⟨byteLength before, byteLength (before ++ t.text.toList)⟩ := by
  rcases List.mem_append.mp ht with ht | ht
  · exact (tokenized_place [] source.toList).exists_cut t ht
  · refine ⟨source.toList, [], ?_, ?_⟩ <;> simp [List.mem_singleton.mp ht, Token.endOfInput]

private theorem isValid_of_mem_scan {source : String} {t : Token} (ht : t ∈ Token.scan source) :
    (⟨t.span.start⟩ : String.Pos.Raw).IsValid source ∧
      (⟨t.span.stop⟩ : String.Pos.Raw).IsValid source := by
  obtain ⟨before, after, hcut, hspan⟩ := exists_cut_of_mem_scan ht
  rw [hspan]
  refine ⟨isValid_byteLength hcut, ?_⟩
  rw [← List.append_assoc] at hcut
  exact isValid_byteLength hcut

private theorem isSome_charOffset?_of_mem_scan {source : String} {t : Token}
    (ht : t ∈ Token.scan source) :
    (charOffset? source.toList t.span.start).isSome ∧
      (charOffset? source.toList t.span.stop).isSome := by
  obtain ⟨before, after, hcut, hspan⟩ := exists_cut_of_mem_scan ht
  rw [hspan]
  constructor
  · rw [hcut, charOffset?_append, Option.isSome_some]
  · rw [hcut, ← List.append_assoc, charOffset?_append, Option.isSome_some]

private theorem eq_endOfInput_of_mem_scan {source : String} {t : Token} (ht : t ∈ Token.scan source)
    (hkind : t.kind = .endOfInput) : t = .endOfInput (byteLength source.toList) := by
  rcases List.mem_append.mp ht with ht | ht
  · exact absurd hkind (admissible_of_mem_place ht).ne_endOfInput
  · exact List.mem_singleton.mp ht

private theorem token_mem_scan {source : String} {e : SyntaxError} (he : parse source = .error e) :
    e.token ∈ Token.scan source := by
  obtain ⟨i, -, htoken⟩ :=
    (Rule.accounted_program maxNesting (Stream.ofSource source)).token_eq he
  obtain ⟨k, -, hk, -⟩ := exists_getElem?_scan source i
  rw [← htoken, current_drop_ofSource]
  exact List.mem_of_getElem? hk

/-! ## Marks of errors -/

private theorem snd_marked (cs : List Char) (span : Span) : (marked cs span).2 =
    clamp (charOffset cs span.stop) ((marked cs span).1 + 1)
      (max cs.length ((marked cs span).1 + 1)) := rfl

/-- Where there is nothing to mark, a first character is marked. -/
private theorem marked_of_mem_scan_empty {t : Token} (ht : t ∈ Token.scan "") :
    marked [] t.span = (0, 1) := by
  have hscan : Token.scan "" = [.endOfInput 0] := by decide +kernel
  rw [hscan, List.mem_singleton] at ht
  rw [ht]
  rfl

private theorem marked_of_kind_ne {source : String} {t : Token} (ht : t ∈ Token.scan source)
    (hkind : t.kind ≠ .endOfInput) : ∃ before after,
      source.toList = before ++ (t.text.toList ++ after) ∧ t.text.toList ≠ [] ∧
        marked source.toList t.span = (before.length, (before ++ t.text.toList).length) := by
  obtain ⟨before, after, hcut, hspan⟩ := exists_cut_of_mem_scan ht
  obtain ⟨c, cs, htext, -⟩ := (admissible_of_mem_scan ht hkind).family
  have hne : t.text.toList ≠ [] := htext ▸ List.cons_ne_nil c cs
  exact ⟨before, after, hcut, hne, by rw [hcut, hspan, marked_append _ _ hne]⟩

private theorem marked_of_kind_eq {source : String} {t : Token} (ht : t ∈ Token.scan source)
    (hkind : t.kind = .endOfInput) (hne : source ≠ "") :
    marked source.toList t.span = (source.length - 1, source.length) := by
  have hlist : source.toList ≠ [] := mt String.toList_eq_nil_iff.mp hne
  rw [eq_endOfInput_of_mem_scan ht hkind, Token.endOfInput, marked_end hlist, String.length_toList]

/-- **Errors are marked where they are.** An error is found at a token of its source, between whose
characters both ends of its span lie, so that characters are counted in front of them and nothing
has to stand in for a count; and the bounds within which the end of the mark is put do not cross.
The mark is the text of the token, and the last character of the source where the token is the end
of input. An empty source always has an error, and is marked as if it had one character. -/
theorem error_marked :
    (∀ (s : Source) (e : SyntaxError), s.parseRun.result = .error e →
      e.token ∈ Token.scan s.text ∧
      ((⟨e.span.start⟩ : String.Pos.Raw).IsValid s.text ∧
        (⟨e.span.stop⟩ : String.Pos.Raw).IsValid s.text) ∧
      ((charOffset? s.text.toList e.span.start).isSome ∧
        (charOffset? s.text.toList e.span.stop).isSome) ∧
      ∃ start stop, marked s.text.toList e.span = (start, stop) ∧
        (stop = clamp (charOffset s.text.toList e.span.stop) (start + 1)
            (max s.text.length (start + 1)) ∧ start + 1 ≤ max s.text.length (start + 1)) ∧
        (s.text = "" → start = 0 ∧ stop = 1) ∧
        (s.text ≠ "" → start < stop ∧ stop ≤ s.text.length ∧
          (e.token.kind ≠ .endOfInput →
            s.text.toList.extract start stop = e.token.text.toList) ∧
          (e.token.kind = .endOfInput → start = s.text.length - 1 ∧ stop = s.text.length))) ∧
    ∀ name, ∃ e, (Source.mk name "").parseRun.result = .error e := by
  refine ⟨fun s e he ↦ ?_, fun name ↦ ?_⟩
  · have htoken : e.token ∈ Token.scan s.text := token_mem_scan he
    refine ⟨htoken, isValid_of_mem_scan htoken, isSome_charOffset?_of_mem_scan htoken,
      (marked s.text.toList e.span).1, (marked s.text.toList e.span).2, rfl, ?_, ?_, ?_⟩
    · rw [← String.length_toList]
      exact ⟨snd_marked _ _, Nat.le_max_right _ _⟩
    · intro hempty
      rw [hempty] at htoken ⊢
      rw [SyntaxError.span, String.toList_empty, marked_of_mem_scan_empty htoken]
      exact ⟨rfl, rfl⟩
    · intro hne
      by_cases hkind : e.token.kind = .endOfInput
      · have hpos : 0 < s.text.length := Nat.pos_of_ne_zero (mt String.length_eq_zero_iff.mp hne)
        rw [SyntaxError.span, marked_of_kind_eq htoken hkind hne]
        exact ⟨Nat.sub_one_lt_of_lt hpos, Nat.le_refl _, fun h ↦ absurd hkind h, fun _ ↦ ⟨rfl, rfl⟩⟩
      · obtain ⟨before, after, hcut, htext, hmark⟩ := marked_of_kind_ne htoken hkind
        rw [SyntaxError.span, hmark, ← String.length_toList, hcut]
        refine ⟨?_, ?_, fun _ ↦ ?_, fun h ↦ absurd h hkind⟩
        · rw [List.length_append]
          exact Nat.lt_add_of_pos_right (List.length_pos_iff.mpr htext)
        · simp
        · simp
  · have hparse : parse "" = .error
        (.unexpectedToken .program (.one (.lexeme .keyword "main")) (.endOfInput 0)) := by
      decide +kernel
    exact ⟨_, hparse⟩

/-- A digit that is none in a literal, behind a name with a character of two bytes. -/
theorem error_marked_digit :
    (Source.mk "a.kay" "main \x7b é := ٣").parseRun.result =
        .error (.unexpectedToken .factor .factor ⟨.other, "٣", ⟨13, 15⟩⟩) ∧
      ∃ start stop, marked "main \x7b é := ٣".toList ⟨13, 15⟩ = (start, stop) ∧
        start < stop ∧ "main \x7b é := ٣".toList.extract start stop = ['٣'] := by
  have hparse : (Source.mk "a.kay" "main \x7b é := ٣").parseRun.result =
      .error (.unexpectedToken .factor .factor ⟨.other, "٣", ⟨13, 15⟩⟩) := by decide +kernel
  obtain ⟨-, -, -, start, stop, hmark, -, -, hplace⟩ := error_marked.1 _ _ hparse
  obtain ⟨hlt, -, htext, -⟩ := hplace (by decide)
  exact ⟨hparse, start, stop, hmark, hlt, htext (by decide)⟩

end Kay
