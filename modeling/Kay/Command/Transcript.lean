import Kay.Log.Filter
import Kay.Source.Diagnostic
import Kay.Text.Pieces

/-!
# Transcripts

What a run puts out: text for the reader, notices beside it, and the events that reach the log.
The three go to the same terminal but are kept apart, each in its own order.
-/

namespace Kay

open Log (Filter)

/-- Something said beside the output proper. -/
inductive Notice where
  | line (text : String)
  | diagnostic (d : Diagnostic)
deriving DecidableEq, Repr

/-- The notice of a syntax error. In a source without text there is no place to show. -/
def Notice.ofError (s : Source) (e : SyntaxError) : Notice :=
  if s.text = "" then .line ("Error: " ++ e.message) else .diagnostic (.ofError s e)

/-- What a run puts out. -/
structure Transcript where
  stdout : String
  notices : List Notice
  log : List Event
deriving DecidableEq, Repr

namespace Transcript

/-- Nothing is put out. -/
def silent : Transcript := ⟨"", [], []⟩

/-- One transcript behind another. -/
protected def append (a b : Transcript) : Transcript :=
  ⟨a.stdout ++ b.stdout, a.notices ++ b.notices, a.log ++ b.log⟩

instance : Append Transcript := ⟨Transcript.append⟩

/-- Text on the output. -/
def printed (text : String) : Transcript := ⟨text, [], []⟩

/-- One notice. -/
def noticed (n : Notice) : Transcript := ⟨"", [n], []⟩

/-- A text beside the output, with a notice for each of its lines. -/
def said (text : String) : Transcript :=
  ⟨"", (Text.pieces '\n' text.toList).map fun line ↦ .line (String.ofList line), []⟩

/-- Those of the events that a filter admits. -/
def logged (f : Filter) (es : List Event) : Transcript := ⟨"", [], es.filter f.admits⟩

end Transcript

/-- The output of a run that is over, and whether all went well. -/
structure Ending where
  transcript : Transcript
  success : Bool
deriving DecidableEq, Repr

/-- The exit code of a run. -/
def Ending.exitCode (e : Ending) : Nat := if e.success then 0 else 1

end Kay
