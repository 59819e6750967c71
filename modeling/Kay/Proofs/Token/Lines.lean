import Kay.Proofs.Token.Depth
import Kay.Proofs.Token.Insertion
import Kay.Text.Pieces

/-!
# Lines of a source

A line feed stops everything that a scan can be in the middle of, so the tokens of a source are
those of its lines, one behind the other: with their places, for two parts (`scan_lineFeed`), and as
terminals, for all lines (`terminals_sourceLines`).

A token knows its offset only; the line in which it stands is the number of line feeds up to there.
The two fit together: a token is among those of the first lines exactly if it stands in one of them
(`lt_length_terminals_iff`).
-/

namespace Kay

open Text Lexeme

/-! ## Line breaks -/

private theorem map_movedBy_scan (n : Nat) (source : String) :
    (Token.scan source).map (Token.movedBy n) =
      Token.place n (lexemes source.toList) ++ [.endOfInput (n + byteLength source.toList)] := by
  rw [Token.scan, List.map_append, ← place_add, Nat.zero_add, Nat.add_comm n]
  rfl

/-- **A line break cuts a scan in two.** Whatever stands in front of a line feed and behind it, the
tokens are those of the first text without its end of input, and behind them those of the second
text, moved by the length of the first one and of the line feed. So the blocks that are left open
add up. -/
theorem scan_lineFeed (a b : String) :
    (∃ ts, Token.scan a = ts ++ [.endOfInput a.utf8ByteSize] ∧ (∀ t ∈ ts, t.kind ≠ .endOfInput) ∧
      Token.scan (a ++ "\n" ++ b) =
        ts ++ (Token.scan b).map (Token.movedBy (a.utf8ByteSize + 1))) ∧
    braceDepth (a ++ "\n" ++ b) = braceDepth a + braceDepth b := by
  refine ⟨⟨Token.place 0 (lexemes a.toList), ?_, ?_, ?_⟩, braceDepth_lineFeed a b⟩
  · rw [Token.scan, byteLength_toList]
  · exact (tokenized_place [] a.toList).kind_ne
  · have hend : byteLength (a ++ "\n" ++ b).toList =
        a.utf8ByteSize + 1 + byteLength b.toList := by
      rw [toList_lineFeed, byteLength_append, byteLength_toList, Nat.add_assoc]
      rfl
    rw [map_movedBy_scan, ← hend, Token.scan, toList_lineFeed, place_lexemes_lineFeed,
      Nat.zero_add, byteLength_toList, List.append_assoc]

/-! ## Pieces -/

private theorem not_mem_of_mem_pieces {cut : Char} {cs p : List Char} (h : p ∈ pieces cut cs) :
    cut ∉ p := by
  induction cs generalizing p with
  | nil =>
    rw [pieces, List.mem_singleton] at h
    exact h ▸ List.not_mem_nil
  | cons c cs ih =>
    rw [pieces] at h
    split at h
    · rcases List.mem_cons.mp h with rfl | h
      · exact List.not_mem_nil
      · exact ih h
    · next hc =>
      split at h
      · rw [List.mem_singleton] at h
        simpa [h] using Ne.symm hc
      · next q qs hq =>
        rcases List.mem_cons.mp h with rfl | h
        · rw [List.mem_cons, not_or]
          exact ⟨Ne.symm hc, ih (hq ▸ List.mem_cons_self)⟩
        · exact ih (hq ▸ List.mem_cons_of_mem _ h)

private theorem intercalate_append {cut : Char} {ps qs : List (List Char)} (hps : ps ≠ [])
    (hqs : qs ≠ []) :
    [cut].intercalate (ps ++ qs) = [cut].intercalate ps ++ cut :: [cut].intercalate qs := by
  induction ps with
  | nil => exact absurd rfl hps
  | cons p ps ih =>
    cases ps with
    | nil =>
      obtain ⟨q, qs, rfl⟩ := List.exists_cons_of_ne_nil hqs
      simp
    | cons p' ps =>
      rw [List.cons_append, List.cons_append, List.intercalate_cons_cons, ← List.cons_append,
        ih (List.cons_ne_nil _ _), List.intercalate_cons_cons]
      simp only [List.append_assoc]

private theorem count_intercalate {cut : Char} {ps : List (List Char)} (hps : ps ≠ [])
    (h : ∀ p ∈ ps, cut ∉ p) : ([cut].intercalate ps).count cut + 1 = ps.length := by
  induction ps with
  | nil => exact absurd rfl hps
  | cons p ps ih =>
    obtain ⟨hp, hps'⟩ := List.forall_mem_cons.mp h
    cases ps with
    | nil => simp [List.count_eq_zero_of_not_mem hp]
    | cons q qs =>
      rw [List.intercalate_cons_cons, List.append_assoc, List.count_append,
        List.count_eq_zero_of_not_mem hp, List.singleton_append, List.count_cons_self,
        Nat.zero_add, ih (List.cons_ne_nil _ _) hps', List.length_cons, List.length_cons,
        List.length_cons]

/-! ## Cuts by bytes -/

private theorem takeBytes_isPrefix {n : Nat} {cs : List Char} (h : n ≤ byteLength cs)
    (ds : List Char) :
    takeBytes n (cs ++ ds) <+: cs := by
  induction cs generalizing n with
  | nil =>
    obtain rfl := Nat.le_zero.mp h
    cases ds <;> exact List.prefix_rfl
  | cons c cs ih =>
    rw [List.cons_append, takeBytes]
    split
    · exact List.nil_prefix
    · rw [byteLength_cons] at h
      exact List.cons_prefix_cons.mpr ⟨rfl, ih (by omega)⟩

private theorem isPrefix_takeBytes {n : Nat} {cs : List Char} (h : byteLength cs ≤ n)
    (ds : List Char) :
    cs <+: takeBytes n (cs ++ ds) := by
  induction cs generalizing n with
  | nil => exact List.nil_prefix
  | cons c cs ih =>
    have hpos := c.utf8Size_pos
    rw [byteLength_cons] at h
    rw [List.cons_append, takeBytes, if_neg (by omega)]
    exact List.cons_prefix_cons.mpr ⟨rfl, ih (by omega)⟩

/-! ## Lines -/

/-- The lines of a source, without their line feeds. -/
def sourceLines (source : String) : List String := (pieces '\n' source.toList).map String.ofList

/-- The number of the line in which an offset lies, counted from zero. -/
def lineOf (source : String) (offset : Nat) : Nat := (takeBytes offset source.toList).count '\n'

/-- The terminals of lines. -/
def terminalsOf (lines : List String) : List Terminal := lines.flatMap fun l ↦ terminals l.toList

private theorem terminals_intercalate (ps : List (List Char)) :
    terminals (['\n'].intercalate ps) = ps.flatMap terminals := by
  induction ps with
  | nil => exact terminals_nil
  | cons p ps ih =>
    cases ps with
    | nil => simp
    | cons q qs =>
      rw [List.intercalate_cons_cons, List.append_assoc, List.singleton_append, terminals_lineFeed,
        ih, ← List.flatMap_cons]

theorem terminals_sourceLines (source : String) :
    terminalsOf (sourceLines source) = terminals source.toList := by
  have h := terminals_intercalate (pieces '\n' source.toList)
  rw [intercalate_pieces] at h
  rw [h, terminalsOf, sourceLines, List.flatMap_map]
  simp

private theorem terminalsOf_take (source : String) (k : Nat) :
    terminalsOf ((sourceLines source).take k)
      = terminals (['\n'].intercalate ((pieces '\n' source.toList).take k)) := by
  rw [terminals_intercalate, terminalsOf, sourceLines, ← List.map_take, List.flatMap_map]
  simp

theorem lineOf_lt_length (source : String) (offset : Nat) :
    lineOf source offset < (sourceLines source).length := by
  have hcount := count_intercalate (pieces_ne_nil '\n' source.toList) fun p ↦ not_mem_of_mem_pieces
  rw [intercalate_pieces] at hcount
  have hpre : takeBytes offset source.toList <+: source.toList :=
    ⟨_, takeBytes_append_dropBytes offset source.toList⟩
  have hle := hpre.sublist.count_le '\n'
  rw [lineOf, sourceLines, List.length_map]
  omega

private theorem length_place (offset : Nat) (cs : List Char) :
    (Token.place offset (lexemes cs)).length = (terminals cs).length := by
  rw [← List.length_map Token.terminal, map_terminal_place, terminals]

/-- Between the first lines of a source and the others there is a line feed. -/
private theorem exists_cut {source : String} {k : Nat} (hpos : 0 < k)
    (hk : k < (sourceLines source).length) : ∃ a b,
      source.toList = a ++ '\n' :: b ∧ a.count '\n' + 1 = k ∧
        terminalsOf ((sourceLines source).take k) = terminals a := by
  have hlen : (sourceLines source).length = (pieces '\n' source.toList).length := List.length_map _
  have htake : (pieces '\n' source.toList).take k ≠ [] := by
    rw [← List.length_pos_iff, List.length_take]
    omega
  have hdrop : (pieces '\n' source.toList).drop k ≠ [] := by
    rw [← List.length_pos_iff, List.length_drop]
    omega
  refine ⟨['\n'].intercalate ((pieces '\n' source.toList).take k),
    ['\n'].intercalate ((pieces '\n' source.toList).drop k), ?_, ?_, terminalsOf_take source k⟩
  · rw [← intercalate_append htake hdrop, List.take_append_drop, intercalate_pieces]
  · rw [count_intercalate htake fun p hp ↦ not_mem_of_mem_pieces (List.mem_of_mem_take hp),
      List.length_take]
    omega

/-- A token of a text that is cut at a line feed is one of the first part exactly if no more line
feeds stand in front of it than that part has. -/
private theorem lt_length_terminals_lineFeed_iff {a b : List Char} {i : Nat} {t : Token}
    (h : (Token.place 0 (lexemes (a ++ '\n' :: b)))[i]? = some t) :
    i < (terminals a).length ↔
      (takeBytes t.span.start (a ++ '\n' :: b)).count '\n' ≤ a.count '\n' := by
  rw [place_lexemes_lineFeed] at h
  rcases Nat.lt_or_ge i (terminals a).length with hi | hi
  · rw [List.getElem?_append_left ((length_place 0 a).symm ▸ hi)] at h
    have htokens := tokenized_place [] a
    have hmem := List.mem_of_getElem? h
    have hstart := htokens.start_lt_stop t hmem
    have hstop := htokens.stop_le t hmem
    rw [List.nil_append] at hstop
    exact iff_of_true hi
      ((takeBytes_isPrefix (hstart.le.trans hstop) ('\n' :: b)).sublist.count_le '\n')
  · rw [List.getElem?_append_right ((length_place 0 a).symm ▸ hi)] at h
    have hoffset : 0 + byteLength a + 1 = byteLength (a ++ ['\n']) := by
      rw [byteLength_append, Nat.zero_add]
      rfl
    rw [hoffset] at h
    have hstart := (tokenized_place (a ++ ['\n']) b).le_start t (List.mem_of_getElem? h)
    have hle := (isPrefix_takeBytes hstart b).sublist.count_le '\n'
    rw [List.append_assoc, List.singleton_append, List.count_append, List.count_singleton_self]
      at hle
    exact iff_of_false (by omega) (by omega)

/-- A token is among those of the first lines exactly if it stands in one of them. -/
theorem lt_length_terminals_iff {source : String} {i : Nat} {t : Token}
    (h : (Token.place 0 (lexemes source.toList))[i]? = some t) (k : Nat) :
    i < (terminalsOf ((sourceLines source).take k)).length ↔ lineOf source t.span.start < k := by
  rcases Nat.eq_zero_or_pos k with rfl | hpos
  · simp [terminalsOf]
  rcases Nat.lt_or_ge k (sourceLines source).length with hk | hk
  · obtain ⟨a, b, hsource, hcount, hterminals⟩ := exists_cut hpos hk
    rw [hsource] at h
    rw [hterminals, lineOf, hsource, lt_length_terminals_lineFeed_iff h]
    omega
  · have hi := (List.getElem?_eq_some_iff.mp h).1
    rw [List.take_of_length_le hk, terminals_sourceLines, ← length_place 0]
    exact iff_of_true hi ((lineOf_lt_length source _).trans_le hk)

end Kay
