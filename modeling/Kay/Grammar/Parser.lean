import Kay.Grammar.Program

/-!
# Parsers

A parser over one source that can be called again and again, for an expression or for a program.
Each call goes on where the one before it stopped, and also behind an error.

Between two calls a parser is what it has read, what is ahead, and the number of levels that are
open. The number is kept by counting along the account of each run, and the next run starts from it.
-/

namespace Kay

/-- What a parser can be asked for. -/
inductive Call where
  | expression
  | program
deriving DecidableEq, Repr

/-- What a parser can answer with. -/
inductive Answer where
  | expression (e : Expression)
  | program (p : Program)
deriving DecidableEq, Repr

/-- The rule for a call, where `depth` levels are open. -/
def Call.rule (depth : Nat) : Call → Rule Answer
  | expression => Answer.expression <$> Rule.expression depth (maxNesting - depth)
  | program => Answer.program <$> Rule.programFrom depth (maxNesting - depth)

/-- A parser between two calls. -/
structure Parser where
  /-- The tokens that were read, the end of input included as often as it was read. -/
  consumed : List Token
  /-- The tokens ahead. -/
  stream : Stream
  /-- The number of levels that are open. -/
  depth : Nat
deriving DecidableEq, Repr

namespace Parser

/-- The parser at the start of a source. -/
def start (source : String) : Parser := ⟨[], Stream.ofSource source, 0⟩

/-- The answer to a call, or why there is none, and the parser behind the call. -/
def call (p : Parser) (c : Call) : Except SyntaxError Answer × Parser :=
  let o := c.rule p.depth p.stream
  (o.result, ⟨p.consumed ++ o.reads, o.rest, openLevels p.depth o.log⟩)

/-- The parser behind calls in sequence, whatever the answers. -/
def after (p : Parser) (calls : List Call) : Parser := calls.foldl (fun p c ↦ (p.call c).2) p

end Parser

end Kay
