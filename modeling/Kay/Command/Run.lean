import Kay.Command.Arguments
import Kay.Command.Session
import Kay.Command.Transcript
import Kay.Json.Text
import Kay.Program.Encoding
import Kay.Program.Outline
import Kay.Text.Backspace

/-!
# Running commands

What each command does with its files. Files are read through a reader in some monad: the identity
where they are data, `IO` where they are on disk. Reading is the only effect; output is returned.
-/

namespace Kay

open Log (Filter)

/-- How the bytes of a file are had. -/
abbrev FileReader (m : Type → Type) : Type := String → m (Except ReadFailure ByteArray)

/-! ## Commands on one file -/

namespace Command

/-- What a command does with a source, unless there is none. -/
def onSource (source : Except SourceError Source) (use : Source → Ending) : Ending :=
  match source with
  | .ok s => use s
  | .error e => ⟨.said ("Error: " ++ e.message), false⟩

/-- What a command prints for the program in a source, unless there is none. -/
def onProgram (f : Filter) (text : Program → String) (s : Source) : Ending :=
  let run := s.parseRun
  let log := Transcript.logged f run.events
  match run.result with
  | .ok p => ⟨log ++ .printed (text p), true⟩
  | .error e => ⟨log ++ .noticed (.ofError s e), false⟩

/-- A text with blanks behind it up to the given width. -/
def padded (width : Nat) (text : String) : String :=
  text ++ String.ofList (List.replicate (width - text.length) ' ')

/-- A token as a line of the list of tokens. -/
def tokenLine (t : Token) : String := padded 10 t.kind.name ++ " " ++ t.text ++ "\n"

/-- The list of the tokens in a source. -/
def listTokens (f : Filter) (s : Source) : Ending :=
  let tokens := Token.scan s.text
  ⟨.logged f (tokens.map .scanned) ++ .printed (String.join (tokens.map tokenLine)), true⟩

/-- A program as JSON, and the end of the line. -/
def jsonText (pretty : Bool) (p : Program) : String :=
  (if pretty then p.toJson.pretty 0 else p.toJson.compact) ++ "\n"

/-! ## Checking -/

/-- The line for a file that holds a program. -/
def checkLine (file : String) (p : Program) : String :=
  "✓ " ++ file ++ " - " ++ Text.Decimal.text p.declarations.length ++ " declarations, " ++
    Text.Decimal.text p.body.members.length ++ " statements\n"

/-- The check of one file. -/
def checkOne (f : Filter) (file : String) (source : Except SourceError Source) : Ending :=
  match source with
  | .ok s => onProgram f (checkLine file) s
  | .error e => ⟨.said ("✗ " ++ e.message), false⟩

/-- One check behind another, both of which have to go well. -/
def both (a b : Ending) : Ending := ⟨a.transcript ++ b.transcript, a.success && b.success⟩

variable {m : Type → Type} [Monad m]

/-- A source from a file. -/
def loadSource (read : FileReader m) (file : String) : m (Except SourceError Source) := do
  return Source.ofBytes file (← read file)

/-- The check of files in sequence. A failure does not keep the others from being checked. -/
def checkAll (read : FileReader m) (f : Filter) : List String → m Ending
  | [] => pure ⟨.silent, true⟩
  | file :: files => do
    let source ← loadSource read file
    let rest ← checkAll read f files
    pure (both (checkOne f file source) rest)

end Command

/-! ## Sessions -/

namespace Session

variable {m : Type → Type} [Monad m]

/-- What is printed when a session starts. -/
def banner : String :=
  "KAY REPL v0.1.0\n" ++
    "Enter a program (main \x7b ... \x7d). Type :help for help, :quit to exit\n\n"

/-- What is printed on request. -/
def helpText : String :=
  "Commands:\n" ++
    "  :load <file>  - Parse a file and show its tree\n" ++
    "  :clear        - Discard a partially entered program\n" ++
    "  :quit         - Exit REPL\n"

/-- The outline of the program in a text, or why there is none. -/
def shown (f : Filter) (text : String) : Transcript :=
  let run := parseRun text
  let log := Transcript.logged f run.events
  match run.result with
  | .ok p => log ++ .printed p.outline
  | .error e => log ++ .said e.message

/-- The scanning of a text whose open blocks are counted. -/
def counted (f : Filter) (text : String) : Transcript :=
  .logged f ((Token.scan text).map .scanned)

/-- What is put out for a reply. Blocks are counted once for every line of a program, and once more
where their number is logged. -/
def perform (read : FileReader m) (f : Filter) (s : Session) : Reply → m Transcript
  | .cleared => pure (.printed "Cleared\n")
  | .quit => pure .silent
  | .help => pure (.printed helpText)
  | .unknownCommand => pure (.printed "Unknown command. Type :help for help.\n")
  | .load path => do
    match Source.ofBytes path (← read path) with
    | .ok source => pure (shown f source.text)
    | .error e => pure (.said ("Error: " ++ e.message))
  | .heldBack depth =>
    let event := Event.awaitingBrace depth
    let count := counted f s.pending
    pure (if f.admits event then count ++ count ++ .logged f [event] else count)
  | .submitted text => pure (counted f text ++ shown f text)
  | .dropped text => pure (counted f text)

/-- The output for one line, and the session behind it unless it is over. -/
def serve (read : FileReader m) (f : Filter) (s : Session) (line : String) :
    m (Transcript × Option Session) := do
  let (reply, s) := s.respond line
  let output ← perform read f s reply
  pure (output, if reply = .quit then none else some s)

/-- What is put out when a session is over. -/
def farewell (f : Filter) : Transcript :=
  .logged f [.sessionEnded] ++ .printed "Goodbye!\n"

/-- The output for lines in sequence, up to the end of the session. -/
def serveAll (read : FileReader m) (f : Filter) (s : Session) : List String → m Transcript
  | [] => pure (farewell f)
  | line :: lines => do
    let (output, next) ← serve read f s line
    match next with
    | none => pure (output ++ farewell f)
    | some s => return output ++ (← serveAll read f s lines)

end Session

/-! ## Everything -/

variable {m : Type → Type} [Monad m]

/-- A run of a command, with the text that is there for a session to read. -/
def Command.run (read : FileReader m) (f : Filter) (input : String) : Command → m Ending
  | .parse file pretty => return onSource (← loadSource read file) (onProgram f (jsonText pretty))
  | .tokens file => return onSource (← loadSource read file) (listTokens f)
  | .format file => return onSource (← loadSource read file) (onProgram f (·.text 0))
  | .tree file => return onSource (← loadSource read file) (onProgram f Program.outline)
  | .check files => checkAll read f files
  | .session => do
    let lines := (Text.inputLines input.toList).map (String.ofList ∘ Text.applyBackspaces)
    return ⟨.printed Session.banner ++ (← Session.serveAll read f .start lines), true⟩

/-- What is printed for a command line that asks for help. -/
def usage : String :=
  "Scanner and parser for the KAY teaching language\n\n" ++
    "Usage: kay [-v] <command>\n\n" ++
    "Commands:\n" ++
    "  parse [-p] <file>  Parse a file and output the tree as JSON\n" ++
    "  tokens <file>      Print the token stream of a file\n" ++
    "  fmt <file>         Print a file in canonical form\n" ++
    "  tree <file>        Print the tree of a file as an outline\n" ++
    "  check [file]...    Check that files parse\n" ++
    "  repl               Interactive session\n"

/-- A run of the program with a command line and the filter that the environment asks for. There is
none for a command line that makes no sense. -/
def run (read : FileReader m) (environment : Option String) (input : String)
    (arguments : List String) : m (Option Ending) := do
  match Arguments.read arguments with
  | none => pure none
  | some .help => pure (some ⟨.printed usage, true⟩)
  | some (.run i) =>
    return some (← i.command.run read (Filter.ofSettings i.verbose environment) input)

end Kay
