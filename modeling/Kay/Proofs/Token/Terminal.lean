import Kay.Proofs.Token.Lexical

/-!
# Terminals

A terminal is a token without its place. The grammar is about terminals, and so is everything that
is said of a text as long as no error is reported in it.

Terminals can be read off a text without offsets (`terminals`), and from the right to the left: a
text in front of another adds its own terminals to those of the other, as long as the two do not
join at the seam (`Admissible.terminals_append`). What joins is decided by one token and the first
character behind it, so for a text that is put together from known pieces every seam is a small
closed question.
-/

namespace Kay

open Text Lexeme

/-- A token without its place. -/
structure Terminal where
  kind : TokenKind
  text : String
deriving DecidableEq, Repr

namespace Terminal

abbrev identifier (name : String) : Terminal := ⟨.identifier, name⟩

abbrev literal (text : String) : Terminal := ⟨.literal, text⟩

abbrev keyword (word : String) : Terminal := ⟨.keyword, word⟩

abbrev operator (lexeme : String) : Terminal := ⟨.operator, lexeme⟩

abbrev separator (text : String) : Terminal := ⟨.separator, text⟩

abbrev endOfInput : Terminal := ⟨.endOfInput, ""⟩

end Terminal

/-- What a token is apart from where it stands. -/
def Token.terminal (t : Token) : Terminal := ⟨t.kind, t.text⟩

/-- What a lexeme is apart from the gap in front of it. -/
def Lexeme.terminal (l : Lexeme) : Terminal := ⟨l.kind, String.ofList l.text⟩

/-- The terminals of a text, the end of input left out. -/
def terminals (cs : List Char) : List Terminal := (lexemes cs).map Lexeme.terminal

@[simp] theorem terminal_ofLexeme (offset : Nat) (l : Lexeme) :
    (Token.ofLexeme offset l).terminal = l.terminal := rfl

theorem map_terminal_place (offset : Nat) (ls : List Lexeme) :
    (Token.place offset ls).map Token.terminal = ls.map Lexeme.terminal := by
  induction ls generalizing offset with
  | nil => rfl
  | cons l ls ih => rw [Token.place, List.map_cons, ih, terminal_ofLexeme, List.map_cons]

/-- The terminals of a source are those of its text, and the end of input. -/
theorem map_terminal_scan (source : String) :
    (Token.scan source).map Token.terminal = terminals source.toList ++ [.endOfInput] := by
  rw [Token.scan, List.map_append, map_terminal_place]
  rfl

/-! ## Reading from the left -/

theorem lexemes_of_none {cs : List Char} (h : first? cs = none) : lexemes cs = [] := by
  rw [lexemes]
  split
  · rfl
  · next heq => exact absurd (h.symm.trans heq) (by simp)

theorem lexemes_of_some {cs rest : List Char} {l : Lexeme} (h : first? cs = some (l, rest)) :
    lexemes cs = l :: lexemes rest := by
  rw [lexemes]
  split
  · next heq => exact absurd (h.symm.trans heq) (by simp)
  · next l' rest' heq =>
    rw [h, Option.some.injEq, Prod.mk.injEq] at heq
    obtain ⟨rfl, rfl⟩ := heq
    rfl

theorem admissible_of_mem_lexemes {cs : List Char} {l : Lexeme} (h : l ∈ lexemes cs) :
    Admissible l.kind l.text := by
  fun_induction lexemes cs with
  | case1 cs hnone => exact absurd h (by simp)
  | case2 cs l' rest hsome ih =>
    rcases List.mem_cons.mp h with rfl | h
    · exact (first?_eq_some_iff.mp hsome).2.2.admissible
    · exact ih h

theorem admissible_of_mem_place {offset : Nat} {cs : List Char} {t : Token}
    (h : t ∈ Token.place offset (lexemes cs)) : Admissible t.kind t.text.toList := by
  have hmem : t.terminal ∈ (Token.place offset (lexemes cs)).map Token.terminal :=
    List.mem_map_of_mem h
  rw [map_terminal_place] at hmem
  obtain ⟨l, hl, heq⟩ := List.mem_map.mp hmem
  have hkind : l.kind = t.kind := congrArg Terminal.kind heq
  have htext : String.ofList l.text = t.text := congrArg Terminal.text heq
  rw [← hkind, ← htext, String.toList_ofList]
  exact admissible_of_mem_lexemes hl

@[simp] theorem terminals_nil : terminals [] = [] := by
  rw [terminals, lexemes_of_none (first?_of_finalGap (.closed .nil)), List.map_nil]

/-- The longest token in front of a text comes before those of the text. -/
private theorem terminals_of_isLongest {kind : TokenKind} {text rest : List Char}
    (h : IsLongest kind text rest) :
    terminals (text ++ rest) = ⟨kind, String.ofList text⟩ :: terminals rest := by
  have hfirst : first? (text ++ rest) = some (⟨[], kind, text⟩, rest) :=
    first?_eq_some_iff.mpr ⟨rfl, .nil, h⟩
  rw [terminals, lexemes_of_some hfirst]
  rfl

theorem terminals_blank {c : Char} (hc : isBlank c = true) (cs : List Char) :
    terminals (c :: cs) = terminals cs := by
  cases h : first? cs with
  | none =>
    have hgap : FinalGap (c :: cs) := (first?_eq_none_iff.mp h).blank_cons hc
    rw [terminals, terminals, lexemes_of_none h, lexemes_of_none (first?_of_finalGap hgap)]
  | some step =>
    obtain ⟨l, rest⟩ := step
    obtain ⟨rfl, hgap, hlong⟩ := first?_eq_some_iff.mp h
    -- The character joins the gap of the first lexeme.
    have hfirst : first? (c :: (l.gap ++ (l.text ++ rest)))
        = some (⟨c :: l.gap, l.kind, l.text⟩, rest) :=
      first?_eq_some_iff.mpr ⟨rfl, .blank hc hgap, hlong⟩
    rw [terminals, terminals, lexemes_of_some h, lexemes_of_some hfirst]
    rfl

/-- An admissible text in front of one that does not join it. -/
theorem Admissible.terminals_append {kind : TokenKind} {c : Char} {cs : List Char}
    (h : Admissible kind (c :: cs)) {rest : List Char}
    (hrest : ∀ d ∈ rest.head?, joins c cs d = false) :
    terminals (c :: cs ++ rest) = ⟨kind, String.ofList (c :: cs)⟩ :: terminals rest :=
  terminals_of_isLongest (h.isLongest hrest)

end Kay
