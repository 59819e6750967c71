import Kay.Proofs.Grammar.Earliest

/-!
# Places do not matter

Whether a source is read, and as which program, is a matter of its terminals. So is the error of a
source that is not read, apart from the place that it names. Two sources can therefore be compared
token by token, however they are laid out, and a source that fails need not be compared any further
than to the token at which it fails (`parse_depends_on_terminals`).

The token of an error is known by its number here, which the token alone determines: tokens start
one behind the other.
-/

namespace Kay

open Grammar

section

variable {source source' : String} {t : Token} {i k : Nat}

/-! ## Tokens by number -/

private theorem length_scan (source : String) :
    (Token.scan source).length = (Stream.ofSource source).tokens.length + 1 := by
  rw [← Stream.toList_ofSource, Stream.toList, List.length_append, List.length_singleton]

private theorem nodup_scan (source : String) : (Token.scan source).Nodup :=
  (pairwise_start_scan source).imp fun hlt heq ↦ absurd (heq ▸ hlt) (Nat.lt_irrefl _)

private theorem eq_of_getElem?_scan (hi : (Token.scan source)[i]? = some t)
    (hk : (Token.scan source)[k]? = some t) : i = k :=
  (List.getElem?_inj (List.getElem?_eq_some_iff.mp hi).1 (nodup_scan source)).mp (hi.trans hk.symm)

private theorem le_of_getElem?_scan (hk : (Token.scan source)[k]? = some t)
    (ht : t.kind = .endOfInput) :
    (Stream.ofSource source).tokens.length ≤ k := by
  by_contra hlt
  rw [← Stream.toList_ofSource, Stream.toList, List.getElem?_append_left (by omega)] at hk
  exact (Stream.scanned_ofSource source t (List.mem_of_getElem? hk)).ne_endOfInput ht

private theorem tokenAt_of_getElem? (h : (Token.scan source)[k]? = some t) :
    tokenAt source k = t := by
  rw [tokenAt, List.getD_eq_getElem?_getD, h, Option.getD_some]

/-- Every number stands for a token. A number beyond the end stands for the end of input. -/
theorem exists_getElem?_scan (source : String) (i : Nat) :
    ∃ k ≤ i, (Token.scan source)[k]? = some (tokenAt source i) ∧
      (k = i ∨ (tokenAt source i).kind = .endOfInput) := by
  have hget : ∀ k ≤ (Stream.ofSource source).tokens.length,
      (Token.scan source)[k]? = some (tokenAt source k) := by
    intro k hk
    have hlt : k < (Token.scan source).length := (length_scan source).symm ▸ Nat.lt_succ_of_le hk
    rw [tokenAt, List.getD_eq_getElem?_getD, List.getElem?_eq_getElem hlt]
    rfl
  rcases Nat.le_total i (Stream.ofSource source).tokens.length with hle | hle
  · exact ⟨i, Nat.le_refl i, hget i hle, .inl rfl⟩
  · have hend := hget _ (Nat.le_refl _)
    rw [tokenAt_of_le (Nat.le_refl _), ← tokenAt_of_le hle] at hend
    exact ⟨_, hle, hend, .inr (by rw [tokenAt_of_le hle]; rfl)⟩

private theorem tokenAt_eq_of_le (hk : (Token.scan source)[k]? = some t) (hle : k ≤ i)
    (hend : k = i ∨ t.kind = .endOfInput) : tokenAt source i = t := by
  rcases hend with rfl | hend
  · exact tokenAt_of_getElem? hk
  · have hlast := le_of_getElem?_scan hk hend
    rw [tokenAt_of_le (hlast.trans hle), ← tokenAt_of_le hlast, tokenAt_of_getElem? hk]

/-! ## Sources with the same terminals -/

private theorem terminal_eq_of_take {j : Nat} (hk : (Token.scan source)[k]? = some t) (hj : j ≤ k)
    (htake : ((Token.scan source').take (k + 1)).map Token.terminal =
      ((Token.scan source).take (k + 1)).map Token.terminal) :
    ∃ t', (Token.scan source')[j]? = some t' ∧
      t'.terminal = (tokenAt source j).terminal := by
  have hlt : j < (Token.scan source).length :=
    hj.trans_lt (List.getElem?_eq_some_iff.mp hk).1
  have hget := congrArg (fun ts : List Terminal ↦ ts[j]?) htake
  simp only [List.getElem?_map, List.getElem?_take_of_lt (Nat.lt_succ_of_le hj)] at hget
  rw [List.getElem?_eq_getElem hlt, Option.map_some, Option.map_eq_some_iff] at hget
  obtain ⟨t', ht', hterminal⟩ := hget
  exact ⟨t', ht', by rw [hterminal, tokenAt_of_getElem? (List.getElem?_eq_getElem hlt)]⟩

private theorem agree_of_take (hk : (Token.scan source)[k]? = some t)
    (hend : k = i ∨ t.kind = .endOfInput)
    (htake : ((Token.scan source').take (k + 1)).map Token.terminal =
      ((Token.scan source).take (k + 1)).map Token.terminal) :
    Rule.Agree (i + 1) (Stream.ofSource source) (Stream.ofSource source') := by
  intro j hj
  rw [current_drop_ofSource, current_drop_ofSource]
  rcases Nat.lt_or_ge k j with hlt | hle
  · -- Behind the token there is more to look at only where both sources are at their ends.
    obtain ⟨t', ht', hterminal⟩ := terminal_eq_of_take hk (Nat.le_refl k) htake
    rw [tokenAt_of_getElem? hk] at hterminal
    have hkind : t.kind = .endOfInput := hend.resolve_left (by omega)
    have hkind' : t'.kind = .endOfInput := (congrArg Terminal.kind hterminal).trans hkind
    rw [tokenAt_eq_of_le hk hlt.le (.inr hkind), tokenAt_eq_of_le ht' hlt.le (.inr hkind'),
      hterminal]
  · obtain ⟨t', ht', hterminal⟩ := terminal_eq_of_take hk hle htake
    rw [tokenAt_of_getElem? ht', hterminal]

/-- A source that agrees with another one as far as the parse of that one has looked fails with the
same error at the same number. -/
private theorem parse_eq_error_of_agree {e : SyntaxError} (he : parse source = .error e)
    (hi : Rule.seen (Rule.program maxNesting (Stream.ofSource source)) = i + 1)
    (hagree : Rule.Agree (i + 1) (Stream.ofSource source) (Stream.ofSource source')) :
    parse source' = .error (e.movedTo (tokenAt source' i)) := by
  have hmirrors := (Rule.alike_program (Nat.le_refl maxNesting)).mirrors
    (Rule.Setting.fits_none (u := Stream.ofSource source')) (hi.symm ▸ hagree)
  have hlength := hmirrors.length_reads
  have hresult : (Rule.program maxNesting (Stream.ofSource source)).result = .error e := he
  obtain ⟨t, ht⟩ := (hresult ▸ hmirrors.same).eq_error
  -- The second run has its error at a token of its own, which has the same number.
  obtain ⟨i', hi', htoken⟩ :=
    (Rule.accounted_program maxNesting (Stream.ofSource source')).token_eq ht
  obtain rfl : i' = i := by
    rw [Rule.seen, hresult] at hi
    rw [Rule.seen, ht] at hi'
    cases e <;> simp only [SyntaxError.movedTo] at hi hi' <;> omega
  rw [current_drop_ofSource, SyntaxError.token_movedTo] at htoken
  rw [htoken]
  exact ht

end

/-- **A parse depends on terminals alone, and only on those up to where it fails.** Sources whose
tokens agree in kind and text hold the same program, if any. Where a source fails, its error is
about exactly one of its tokens; and any source that agrees with it in kind and text up to that
token fails with the same error about its own token of that number. -/
theorem parse_depends_on_terminals (source : String) :
    (∀ source' p, (Token.scan source').map Token.terminal =
      (Token.scan source).map Token.terminal → (parse source = .ok p ↔ parse source' = .ok p)) ∧
    ∀ e, parse source = .error e → ∃ k, (Token.scan source)[k]? = some e.token ∧
      (∀ j, (Token.scan source)[j]? = some e.token → j = k) ∧
      ∀ source', ((Token.scan source').take (k + 1)).map Token.terminal =
          ((Token.scan source).take (k + 1)).map Token.terminal →
        ∃ t, (Token.scan source')[k]? = some t ∧ t.terminal = e.token.terminal ∧
          parse source' = .error (e.movedTo t) := by
  refine ⟨fun source' p h ↦ ?_, fun e he ↦ ?_⟩
  · exact parse_eq_ok_iff_of_map_terminal_eq h.symm
  · obtain ⟨i, hi, htoken⟩ :=
      (Rule.accounted_program maxNesting (Stream.ofSource source)).token_eq he
    rw [current_drop_ofSource] at htoken
    obtain ⟨k, hle, hk, hend⟩ := exists_getElem?_scan source i
    rw [htoken] at hk hend
    refine ⟨k, hk, fun j hj ↦ eq_of_getElem?_scan hj hk, fun source' htake ↦ ?_⟩
    obtain ⟨t, ht, hterminal⟩ := terminal_eq_of_take hk (Nat.le_refl k) htake
    rw [tokenAt_of_getElem? hk] at hterminal
    have hkind : t.kind = e.token.kind := congrArg Terminal.kind hterminal
    have hparse := parse_eq_error_of_agree he hi (agree_of_take hk hend htake)
    rw [tokenAt_eq_of_le ht hle (hkind ▸ hend)] at hparse
    exact ⟨t, ht, hterminal, hparse⟩

/-- A literal that is out of range, in another layout and with other tokens behind it. -/
theorem parse_depends_on_terminals_literal :
    parse "main\x7bx:=2147483648" =
        .error (.literalOutOfRange ⟨.literal, "2147483648", ⟨8, 18⟩⟩) ∧
      parse "main \x7b x := 2147483648 !!" =
        .error (.literalOutOfRange ⟨.literal, "2147483648", ⟨12, 22⟩⟩) := by
  have hparse : parse "main\x7bx:=2147483648" =
      .error (.literalOutOfRange ⟨.literal, "2147483648", ⟨8, 18⟩⟩) := by
    decide +kernel
  obtain ⟨k, hk, -, hmoved⟩ := (parse_depends_on_terminals _).2 _ hparse
  obtain rfl : k = 4 := eq_of_getElem?_scan hk (by decide +kernel)
  obtain ⟨t, ht, -, herror⟩ := hmoved "main \x7b x := 2147483648 !!" (by decide +kernel)
  have ht' : (Token.scan "main \x7b x := 2147483648 !!")[4]? =
    some ⟨.literal, "2147483648", ⟨12, 22⟩⟩ := by decide +kernel
  obtain rfl := Option.some.inj (ht.symm.trans ht')
  exact ⟨hparse, herror⟩

end Kay
