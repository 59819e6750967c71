import Kay.Token.Lexeme

/-!
# Token streams

What a parser still has to read: the tokens ahead, and the end of input behind them for ever. The
end is kept as an offset, not as a token of the list, so that reading on at the end changes nothing
and the number of tokens ahead bounds every loop that consumes one in each round.
-/

namespace Kay

open Text (byteLength)

/-- The tokens ahead of a reader. -/
structure Stream where
  /-- The tokens in front of the end of input. -/
  tokens : List Token
  /-- The offset at which the source ends. -/
  stop : Nat
deriving DecidableEq, Repr

namespace Stream

/-- The stream of all tokens of a source. -/
def ofSource (source : String) : Stream where
  tokens := Token.place 0 (lexemes source.toList)
  stop := byteLength source.toList

/-- The token to be read next. -/
def current (s : Stream) : Token := s.tokens.headD (.endOfInput s.stop)

/-- The stream without the token to be read next. -/
def advance (s : Stream) : Stream := { s with tokens := s.tokens.tail }

/-- The stream without the next `n` tokens. -/
def drop (n : Nat) (s : Stream) : Stream := { s with tokens := s.tokens.drop n }

/-- The tokens ahead, with the end of input as the last one. -/
def toList (s : Stream) : List Token := s.tokens ++ [.endOfInput s.stop]

/-- The stream of a source holds its tokens. -/
theorem toList_ofSource (source : String) : (ofSource source).toList = Token.scan source := rfl

@[simp] theorem drop_zero (s : Stream) : s.drop 0 = s := rfl

@[simp] theorem drop_one (s : Stream) : s.drop 1 = s.advance := by
  simp [drop, advance]

theorem drop_drop (m n : Nat) (s : Stream) : (s.drop m).drop n = s.drop (m + n) := by
  simp [drop, List.drop_drop]

@[simp] theorem stop_advance (s : Stream) : s.advance.stop = s.stop := rfl

@[simp] theorem stop_drop (n : Nat) (s : Stream) : (s.drop n).stop = s.stop := rfl

end Stream

end Kay
