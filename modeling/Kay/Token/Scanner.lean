import Kay.Token.Lexeme

/-!
# Scanners

A scanner hands out the tokens of a source one at a time. It can be asked in two ways, in any
order: `next` always answers, with the end of input again and again once it is reached, while
`next?` answers nothing after the end has been handed out by either.
-/

namespace Kay

open Text (byteLength)

/-- A source that has been read up to some offset. -/
structure Scanner where
  /-- The text from the offset on. -/
  rest : List Char
  /-- The number of bytes read. -/
  offset : Nat
  /-- Whether the end of input has been handed out. -/
  ended : Bool
deriving DecidableEq, Repr

namespace Scanner

/-- The scanner at the start of a source. -/
def start (source : String) : Scanner := ⟨source.toList, 0, false⟩

/-- The next token. -/
def next (s : Scanner) : Token × Scanner :=
  match Lexeme.first? s.rest with
  | some (l, rest) =>
    let t := Token.ofLexeme s.offset l
    (t, ⟨rest, t.span.stop, s.ended⟩)
  | none =>
    let stop := s.offset + byteLength s.rest
    (.endOfInput stop, ⟨[], stop, true⟩)

/-- The next token, unless the end of input has been handed out. -/
def next? (s : Scanner) : Option Token × Scanner :=
  if s.ended then (none, s) else s.next.map some id

/-- Everything that `next?` still hands out. -/
def remaining (s : Scanner) : List Token :=
  if s.ended then []
  else Token.place s.offset (lexemes s.rest) ++ [.endOfInput (s.offset + byteLength s.rest)]

/-- The scanner behind the end of its source, where `remaining` leaves it. -/
def finish (s : Scanner) : Scanner := ⟨[], s.offset + byteLength s.rest, true⟩

/-- A scanner at the start of a source hands out all its tokens. -/
theorem remaining_start (source : String) : (start source).remaining = Token.scan source := by
  simp [remaining, start, Token.scan]

end Scanner

end Kay
