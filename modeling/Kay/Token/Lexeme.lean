import Kay.Text.Letter
import Kay.Text.Blank
import Kay.Text.Bytes
import Kay.Text.Digit
import Kay.Token.Basic

/-!
# Lexemes

A source is cut into lexemes from the left, each as long as the rules allow, with the stretch of
white space and comments in front of it kept as its *gap*. Nothing is lost: gaps and texts in
order, and the gap that no lexeme follows, make up the source again (`flatten_lexemes`).

Offsets play no part here. What kind a lexeme has, and where it ends, depends on the characters
from its own first one on; `Token.place` puts the offsets in afterwards. So facts about which
tokens a text has can be stated without arithmetic, and facts about where they stand follow.
-/

namespace Kay

open Text

/-! ## Gaps -/

/-- The gap at the head of a text, and what follows it. The flag says whether the text starts
inside a comment, which goes on to the next line feed; the line feed itself is white space. -/
def splitGap : (inComment : Bool) → List Char → List Char × List Char
  | _, [] => ([], [])
  | true, c :: cs => ((splitGap (c ≠ '\n') cs).map (c :: ·) id)
  | false, c :: cs =>
    if isBlank c then (splitGap false cs).map (c :: ·) id
    else if c = '/' ∧ cs.head? = some '/' then (splitGap true cs).map (c :: ·) id
    else ([], c :: cs)

/-- Splitting off the gap loses nothing. -/
theorem splitGap_append (inComment : Bool) (cs : List Char) :
    (splitGap inComment cs).1 ++ (splitGap inComment cs).2 = cs := by
  fun_induction splitGap inComment cs <;> simp_all [Prod.map]

theorem length_splitGap_le (inComment : Bool) (cs : List Char) :
    (splitGap inComment cs).2.length ≤ cs.length := by
  have := congrArg List.length (splitGap_append inComment cs)
  simp only [List.length_append] at this
  omega

/-! ## The longest match -/

/-- A lexeme with the gap in front of it. -/
structure Lexeme where
  /-- The white space and the comments in front. -/
  gap : List Char
  kind : TokenKind
  text : List Char
deriving DecidableEq, Repr

namespace Lexeme

/-- Whether a character may stand in a word behind the first letter. -/
def isWordChar (c : Char) : Bool := isLetter c || isDecimalDigit c

/-- Whether two characters together are one operator. -/
def isPair (c d : Char) : Bool := String.ofList [c, d] ∈ operators

/-- The kind of a word. -/
def wordKind (word : List Char) : TokenKind :=
  if isKeyword (String.ofList word) then .keyword else .identifier

/-- The kind of a character that is a lexeme by itself. -/
def signKind (c : Char) : TokenKind :=
  if String.singleton c ∈ separators then .separator
  else if String.singleton c ∈ operators then .operator
  else .other

/-- The longest lexeme of a text that starts with the character `c` and goes on with `cs`: its
kind, its text, and what follows it. -/
def longest (c : Char) (cs : List Char) : TokenKind × List Char × List Char :=
  if isLetter c then
    let word := c :: cs.takeWhile isWordChar
    (wordKind word, word, cs.dropWhile isWordChar)
  else if isAsciiDigit c then
    (.literal, c :: cs.takeWhile isAsciiDigit, cs.dropWhile isAsciiDigit)
  else
    match cs with
    | d :: ds => if isPair c d then (.operator, [c, d], ds) else (signKind c, [c], d :: ds)
    | [] => (signKind c, [c], [])

theorem longest_append (c : Char) (cs : List Char) :
    (longest c cs).2.1 ++ (longest c cs).2.2 = c :: cs := by
  unfold longest
  split
  · simp
  · split
    · simp
    · split
      · split <;> rfl
      · rfl

theorem length_longest_le (c : Char) (cs : List Char) :
    (longest c cs).2.2.length ≤ cs.length := by
  unfold longest
  split
  · exact (List.dropWhile_sublist _).length_le
  · split
    · exact (List.dropWhile_sublist _).length_le
    · split
      · split <;> simp
      · exact Nat.le_refl _

/-- The first lexeme of a text and what follows it, if there is more than a gap. -/
def first? (cs : List Char) : Option (Lexeme × List Char) :=
  match splitGap false cs with
  | (_, []) => none
  | (gap, c :: rest) =>
    let m := longest c rest
    some (⟨gap, m.1, m.2.1⟩, m.2.2)

/-- The first lexeme with its gap, and what follows it, make up the text. -/
theorem append_of_first? {cs rest : List Char} {l : Lexeme} (h : first? cs = some (l, rest)) :
    l.gap ++ (l.text ++ rest) = cs := by
  have hgap := splitGap_append false cs
  unfold first? at h
  split at h
  · simp at h
  · next gap c r heq =>
    rw [heq] at hgap
    have hlong := longest_append c r
    simp only [Option.some.injEq, Prod.mk.injEq] at h
    obtain ⟨rfl, rfl⟩ := h
    rw [hlong]
    exact hgap

theorem length_lt_of_first? {cs rest : List Char} {l : Lexeme} (h : first? cs = some (l, rest)) :
    rest.length < cs.length := by
  have hgap := length_splitGap_le false cs
  unfold first? at h
  split at h
  · simp at h
  · next gap c r heq =>
    rw [heq] at hgap
    have hlong := length_longest_le c r
    simp only [Option.some.injEq, Prod.mk.injEq] at h
    obtain ⟨-, rfl⟩ := h
    simp only [List.length_cons] at hgap
    omega

end Lexeme

/-! ## All lexemes of a text -/

/-- The lexemes of a text from left to right. -/
def lexemes (cs : List Char) : List Lexeme :=
  match _h : Lexeme.first? cs with
  | none => []
  | some (l, rest) => l :: lexemes rest
termination_by cs.length
decreasing_by exact Lexeme.length_lt_of_first? _h

/-- The gap behind the last lexeme of a text. -/
def lastGap (cs : List Char) : List Char :=
  match _h : Lexeme.first? cs with
  | none => cs
  | some (_, rest) => lastGap rest
termination_by cs.length
decreasing_by exact Lexeme.length_lt_of_first? _h

/-- Cutting a text into lexemes loses nothing. -/
theorem flatten_lexemes (cs : List Char) :
    ((lexemes cs).flatMap fun l ↦ l.gap ++ l.text) ++ lastGap cs = cs := by
  fun_induction lexemes cs with
  | case1 cs h => rw [lastGap]; split <;> simp_all
  | case2 cs l rest h ih =>
    rw [lastGap]
    split
    · simp_all
    · next h' =>
      rw [h, Option.some.injEq, Prod.mk.injEq] at h'
      obtain ⟨rfl, rfl⟩ := h'
      rw [List.flatMap_cons, List.append_assoc, ih, List.append_assoc]
      exact Lexeme.append_of_first? h

/-! ## Tokens of a text -/

namespace Token

/-- The token of a lexeme whose gap starts at the given offset. -/
def ofLexeme (offset : Nat) (l : Lexeme) : Token :=
  let start := offset + byteLength l.gap
  ⟨l.kind, String.ofList l.text, ⟨start, start + byteLength l.text⟩⟩

/-- The tokens of lexemes in sequence, the first of whose gaps starts at the given offset. -/
def place (offset : Nat) : List Lexeme → List Token
  | [] => []
  | l :: ls =>
    let t := ofLexeme offset l
    t :: place t.span.stop ls

/-- The tokens of a source, with the end of input as the last one. -/
def scan (source : String) : List Token :=
  place 0 (lexemes source.toList) ++ [endOfInput (byteLength source.toList)]

end Token

/-- The net number of blocks that a text leaves open. -/
def braceDepth (source : String) : Int := (Token.scan source).foldr (·.braceWeight + ·) 0

end Kay
