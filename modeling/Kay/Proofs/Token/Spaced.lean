import Kay.Proofs.Token.Terminal

/-!
# A text for every list of terminals

Whatever can be scanned, can be written: with a blank between each two of them, the texts of
terminals do not join, and are cut into the same terminals again (`scan_interspersed`). So a grammar
over terminals says which texts there are.

One blank is enough, whatever stands on its two sides, since white space joins no token
(`joins_eq_false_of_isBlank`) and no comment starts with it. Nothing less will do: two slashes that
touch are no two operators.
-/

namespace Kay

open Text Lexeme

/-! ## A blank behind a token -/

theorem joins_eq_false_of_isBlank {c d : Char} {cs : List Char} (h : isBlank d = true) :
    joins c cs d = false := by
  have hword := isWordChar_eq_false_of_isBlank h
  have hdigit : isAsciiDigit d = false := by
    rw [← Bool.not_eq_true]
    exact fun hd ↦ ne_true_of_eq_false hword (isWordChar_of_isAsciiDigit hd)
  have hpair : isPair c d = false := by
    have hall : ∀ o ∈ operators, o.toList.all fun c ↦ !isBlank c := by decide +kernel
    rw [← Bool.not_eq_true]
    intro hpair
    have hd := hall _ (of_decide_eq_true hpair)
    rw [String.toList_ofList] at hd
    simp [h] at hd
  have hslash : d ≠ '/' := by
    rintro rfl
    exact absurd h (by decide)
  rw [joins]
  split
  · exact hword
  · split
    · exact hdigit
    · simp [hpair, hslash]

/-- A blank cuts off the admissible text in front of it. -/
private theorem Admissible.terminals_append_blank {kind : TokenKind} {text : List Char}
    (h : Admissible kind text) (rest : List Char) :
    terminals (text ++ ' ' :: rest) = ⟨kind, String.ofList text⟩ :: terminals rest := by
  have hblank : isBlank ' ' = true := by decide
  obtain ⟨c, cs, rfl, -⟩ := h.family
  rw [h.terminals_append, terminals_blank hblank]
  intro d hd
  obtain rfl := Option.some.inj hd
  exact joins_eq_false_of_isBlank hblank

private theorem Admissible.terminals_eq {kind : TokenKind} {text : List Char}
    (h : Admissible kind text) :
    terminals text = [⟨kind, String.ofList text⟩] := by
  obtain ⟨c, cs, rfl, -⟩ := h.family
  have hrest : ∀ d ∈ ([] : List Char).head?, joins c cs d = false := nofun
  have happend := h.terminals_append hrest
  rwa [List.append_nil, terminals_nil] at happend

/-! ## Blanks between tokens -/

/-- The texts of terminals, with a blank between each two of them. -/
def interspersed (ts : List Terminal) : String := " ".intercalate (ts.map Terminal.text)

private theorem toList_interspersed_cons {ts : List Terminal} (hts : ts ≠ []) (t : Terminal) :
    (interspersed (t :: ts)).toList = t.text.toList ++ ' ' :: (interspersed ts).toList := by
  have hmap : ts.map Terminal.text ≠ [] := mt List.map_eq_nil_iff.mp hts
  rw [interspersed, List.map_cons, String.intercalate_cons_of_ne_nil hmap, String.toList_append,
    String.toList_append, List.append_assoc]
  rfl

private theorem terminals_interspersed {ts : List Terminal}
    (h : ∀ t ∈ ts, Admissible t.kind t.text.toList) :
    terminals (interspersed ts).toList = ts := by
  induction ts with
  | nil => exact terminals_nil
  | cons t ts ih =>
    obtain ⟨ht, hts⟩ := List.forall_mem_cons.mp h
    by_cases hnil : ts = []
    · rw [hnil, interspersed, List.map_singleton, String.intercalate_singleton, ht.terminals_eq,
        String.ofList_toList]
    · rw [toList_interspersed_cons hnil, ht.terminals_append_blank, ih hts, String.ofList_toList]

/-- The end of input has no text, so it leaves nothing but a blank behind the last terminal. -/
private theorem terminals_interspersed_concat {ts : List Terminal}
    (h : ∀ t ∈ ts, Admissible t.kind t.text.toList) :
    terminals (interspersed (ts ++ [.endOfInput])).toList = ts := by
  induction ts with
  | nil => exact terminals_nil
  | cons t ts ih =>
    obtain ⟨ht, hts⟩ := List.forall_mem_cons.mp h
    rw [List.cons_append, toList_interspersed_cons (by simp), ht.terminals_append_blank, ih hts,
      String.ofList_toList]

theorem exists_map_terminal_scan {ts : List Terminal}
    (h : ∀ t ∈ ts, Admissible t.kind t.text.toList) :
    ∃ source, (Token.scan source).map Token.terminal = ts ++ [.endOfInput] :=
  ⟨interspersed ts, by rw [map_terminal_scan, terminals_interspersed h]⟩

/-! ## What a scan says about its source -/

theorem admissible_of_mem_scan {source : String} {t : Token} (ht : t ∈ Token.scan source)
    (hkind : t.kind ≠ .endOfInput) : Admissible t.kind t.text.toList := by
  rw [Token.scan] at ht
  rcases List.mem_append.mp ht with ht | ht
  · exact admissible_of_mem_place ht
  · rw [List.mem_singleton.mp ht] at hkind
    exact absurd rfl hkind

private theorem admissible_of_mem_terminals {cs : List Char} {t : Terminal}
    (ht : t ∈ terminals cs) :
    Admissible t.kind t.text.toList := by
  obtain ⟨l, hl, rfl⟩ := List.mem_map.mp ht
  rw [Lexeme.terminal, String.toList_ofList]
  exact admissible_of_mem_lexemes hl

/-- **Tokens scan as themselves.** Whatever terminals have admissible texts, the texts with single
blanks between them are scanned as these terminals. All tokens of a source have admissible texts,
so its scan can be written down, with or without the end of input, and be had again by scanning. -/
theorem scan_interspersed :
    (∀ ts : List Terminal, (∀ t ∈ ts, Admissible t.kind t.text.toList) →
      (Token.scan (interspersed ts)).map Token.terminal = ts ++ [.endOfInput]) ∧
    ∀ source : String,
      (∀ t ∈ Token.scan source, t.kind ≠ .endOfInput → Admissible t.kind t.text.toList) ∧
      (Token.scan (interspersed (terminals source.toList))).map Token.terminal =
        (Token.scan source).map Token.terminal ∧
      (Token.scan (interspersed ((Token.scan source).map Token.terminal))).map Token.terminal =
        (Token.scan source).map Token.terminal := by
  constructor
  · intro ts h
    rw [map_terminal_scan, terminals_interspersed h]
  intro source
  have hall : ∀ t ∈ terminals source.toList, Admissible t.kind t.text.toList :=
    fun t ↦ admissible_of_mem_terminals
  refine ⟨fun t ↦ admissible_of_mem_scan, ?_, ?_⟩
  · rw [map_terminal_scan, map_terminal_scan, terminals_interspersed hall]
  · rw [map_terminal_scan, map_terminal_scan, terminals_interspersed_concat hall]

/-- Slashes and ampersands that would be a comment and an operator if they touched, and a digit that
is none in a literal. -/
theorem scan_interspersed_slashes :
    (∀ t ∈ [Terminal.operator "/", .operator "/", ⟨.other, "&"⟩, ⟨.other, "&"⟩, .literal "007",
        ⟨.other, "٣"⟩], Admissible t.kind t.text.toList) ∧
      (Token.scan "/ / & & 007 ٣").map Token.terminal =
        [.operator "/", .operator "/", ⟨.other, "&"⟩, ⟨.other, "&"⟩, .literal "007",
          ⟨.other, "٣"⟩, .endOfInput] := by
  have hslash : Admissible .operator "/".toList := .of_mem_operators (by decide)
  have hand : Admissible .other "&".toList :=
    .other (by decide) (by decide +kernel) (by decide) (by decide) (by decide)
  have hdigit : Admissible .other "٣".toList :=
    .other (by decide) (by decide +kernel) (by decide) (by decide) (by decide)
  have hliteral : Admissible .literal "007".toList := by
    refine .literal (by decide) fun c hc ↦ ?_
    obtain rfl | rfl : c = '0' ∨ c = '7' := by simpa using hc
    · rfl
    · rfl
  have hall : ∀ t ∈ [Terminal.operator "/", .operator "/", ⟨.other, "&"⟩, ⟨.other, "&"⟩,
      .literal "007", ⟨.other, "٣"⟩], Admissible t.kind t.text.toList := by
    simp only [List.forall_mem_cons]
    exact ⟨hslash, hslash, hand, hand, hliteral, hdigit, nofun⟩
  exact ⟨hall, scan_interspersed.1 _ hall⟩

end Kay
