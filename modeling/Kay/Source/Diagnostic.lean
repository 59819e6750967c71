import Kay.Source.Basic

/-!
# Diagnostics

Where in a source an error is shown. Errors are placed in bytes and readers count characters, so a
diagnostic counts them: the stretch that is marked, and the line and the column of its first
character. An error at the end of input marks the last character, since there is none behind it.
-/

namespace Kay

/-! ## Characters -/

/-- The number of characters in front of a byte offset, if the offset lies between two characters
of the text or at one of its ends. -/
def charOffset? : List Char → Nat → Option Nat
  | _, 0 => some 0
  | [], _ + 1 => none
  | c :: cs, n + 1 =>
    if c.utf8Size ≤ n + 1 then (charOffset? cs (n + 1 - c.utf8Size)).map (· + 1) else none

/-- The number of characters in front of a byte offset. An offset that cuts a character, or lies
beyond the text, counts as its end. -/
def charOffset (cs : List Char) (offset : Nat) : Nat := (charOffset? cs offset).getD cs.length

/-- The value within bounds that is nearest to the given one. -/
def clamp (n lo hi : Nat) : Nat := max lo (min n hi)

/-- The characters to be marked for a span: the first one, and the one behind the last. At least one
character is marked. No marked character lies beyond the text, unless the text is empty. -/
def marked (cs : List Char) (span : Span) : Nat × Nat :=
  let start := min (charOffset cs span.start) (cs.length - 1)
  (start, clamp (charOffset cs span.stop) (start + 1) (max cs.length (start + 1)))

/-! ## Lines -/

/-- Whether a character ends a line when it stands alone. -/
def isLineEnd (c : Char) : Bool :=
  c ∈ ['\n', '\x0b', '\x0c', '\r', '\u0085', '\u2028', '\u2029']

/-- A line and a column, both counted from one. -/
structure Position where
  line : Nat
  column : Nat
deriving DecidableEq, Repr

namespace Position

/-- The position behind a character, by what follows it. A carriage return in front of a line feed
does not end the line; the line feed does. -/
def after (p : Position) (c : Char) (following : List Char) : Position :=
  if isLineEnd c && !(c = '\r' && following.head? = some '\n') then ⟨p.line + 1, 1⟩
  else ⟨p.line, p.column + 1⟩

/-- The position of the character with the given index, where the text starts at position `p`. -/
def ofIndexFrom (p : Position) : List Char → Nat → Position
  | _, 0 | [], _ => p
  | c :: cs, n + 1 => ofIndexFrom (p.after c cs) cs n

/-- The position of the character with the given index. -/
def ofIndex (cs : List Char) (n : Nat) : Position := ofIndexFrom ⟨1, 1⟩ cs n

end Position

/-! ## Reports -/

/-- A syntax error with the place at which it is shown. -/
structure Diagnostic where
  message : String
  /-- The name of the source. -/
  name : String
  position : Position
  /-- What is said at the place. -/
  label : String
deriving DecidableEq, Repr

namespace Diagnostic

/-- What is said about an error at its place. -/
def labelOf (e : SyntaxError) : String :=
  match e.found? with
  | none => e.message
  | some t =>
    if t.isEnd then "input ends here"
    else "found " ++ t.kind.description ++ " \x60" ++ t.text ++ "\x60"

/-- The diagnostic for an error in a source. -/
def ofError (s : Source) (e : SyntaxError) : Diagnostic where
  message := e.message
  name := s.name
  position := .ofIndex s.text.toList (marked s.text.toList e.span).1
  label := labelOf e

/-- The name of the source with line and column. -/
def location (d : Diagnostic) : String :=
  d.name ++ ":" ++ Text.Decimal.text d.position.line ++ ":" ++ Text.Decimal.text d.position.column

end Diagnostic

end Kay
