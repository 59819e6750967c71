import Kay.Command.Run

/-!
# The program

Hands the command line, the environment and the files on disk to `Kay.run`, and puts out what comes
back. A session is served line by line, so that answers come before the next line is asked for.
-/

open Kay

/-- The bytes of a file on disk. -/
def readFromDisk : FileReader IO := fun path ↦ do
  try
    return .ok (← IO.FS.readBinFile path)
  catch
    | .noFileOrDirectory .. => return .error .notFound
    | .inappropriateType (some _) .. => return .error .notADirectory
    | .inappropriateType none .. => return .error .isADirectory
    | e => return .error (.cause e.toString)

/-- Notices in lines. -/
def noticeText : Notice → String
  | .line text => text
  | .diagnostic d => "Error: " ++ d.message ++ "\n  at " ++ d.location ++ ": " ++ d.label

/-- Puts out a transcript: the log and the notices on one side, the output on the other. -/
def putOut (t : Transcript) : IO Unit := do
  for e in t.log do IO.eprintln e.line
  for n in t.notices do IO.eprintln (noticeText n)
  IO.print t.stdout
  (← IO.getStdout).flush

/-- Serves the lines of an input until the session is over. -/
partial def serveInput (filter : Log.Filter) (input : IO.FS.Stream) (s : Session) : IO Unit := do
  let raw ← input.getLine
  match (Text.inputLines raw.toList).map (String.ofList ∘ Text.applyBackspaces) with
  | line :: _ =>
    let (output, next) ← s.serve readFromDisk filter line
    putOut output
    match next with
    | some s => serveInput filter input s
    | none => putOut (Session.farewell filter)
  | [] => putOut (Session.farewell filter)

def main (arguments : List String) : IO UInt32 := do
  let environment ← IO.getEnv "RUST_LOG"
  match Arguments.read arguments with
  | some (.run ⟨.session, verbose⟩) =>
    putOut (.printed Session.banner)
    serveInput (Log.Filter.ofSettings verbose environment) (← IO.getStdin) .start
    return 0
  | _ =>
    match ← run readFromDisk environment "" arguments with
    | some ending =>
      putOut ending.transcript
      return UInt32.ofNat ending.exitCode
    | none =>
      IO.eprint usage
      return 2
