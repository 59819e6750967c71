import Kay.Grammar.Program
import Kay.Text.Blank
import Kay.Token.Lexeme

/-!
# Sessions

A session takes a program line by line. Lines are held back while more blocks are opened than
closed, and are taken together as soon as that is no longer so. A line that starts with a colon is
a command, but only while nothing is held back; inside a program only `:clear` is.

`Session.respond` says what becomes of one line. What is printed for it is decided elsewhere.
-/

namespace Kay

/-- Lines that are held back, each with its line feed. -/
structure Session where
  pending : String
deriving DecidableEq, Repr

/-- What becomes of a line. -/
inductive Reply where
  /-- What was held back is discarded. -/
  | cleared
  | quit
  | help
  | load (path : String)
  | unknownCommand
  /-- The line is held back, as so many blocks are open. -/
  | heldBack (depth : Int)
  /-- The line completes a text. -/
  | submitted (text : String)
  /-- The line completes a text of white space, which is passed over. -/
  | dropped (text : String)
deriving DecidableEq, Repr

namespace Session

open Text (isBlank trim)

/-- The session in which nothing is held back. -/
def start : Session := ⟨""⟩

/-- The command in a trimmed line that starts with a colon. -/
def command (line : List Char) : Reply :=
  let word := String.ofList line
  if word = ":quit" ∨ word = ":q" then .quit
  else if word = ":help" ∨ word = ":h" then .help
  else if ":load ".toList.isPrefixOf line then
    .load (String.ofList (trim (line.drop ":load ".length)))
  else .unknownCommand

/-- What becomes of a text, held back so far and now with one more line. -/
def accumulate (text : String) : Reply × Session :=
  let depth := braceDepth text
  if depth > 0 then (.heldBack depth, ⟨text⟩)
  else if text.toList.all isBlank then (.dropped text, start)
  else (.submitted text, start)

/-- What becomes of a line, and the session behind it. -/
def respond (s : Session) (line : String) : Reply × Session :=
  let trimmed := trim line.toList
  if trimmed = ":clear".toList then (.cleared, start)
  else if s.pending = "" ∧ trimmed.head? = some ':' then (command trimmed, s)
  else accumulate (s.pending ++ line ++ "\n")

end Session

end Kay
