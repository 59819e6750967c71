import Kay.Grammar.Program

/-!
# Sources

The text of one program together with the name that it is reported under. A source is read whole,
so what keeps it from being read comes to light before the first token.
-/

namespace Kay

/-- Why the bytes of a file could not be had. -/
inductive ReadFailure where
  | notFound
  | notADirectory
  | isADirectory
  /-- A cause in words. -/
  | cause (text : String)
deriving DecidableEq, Repr

/-- The wording of a failure, with the number that the system knows it by. -/
def ReadFailure.message : ReadFailure → String
  | notFound => "No such file or directory (os error 2)"
  | notADirectory => "Not a directory (os error 20)"
  | isADirectory => "Is a directory (os error 21)"
  | cause text => text

/-- Why there is no source of a given name. -/
inductive SourceError where
  | unreadable (name : String) (failure : ReadFailure)
  | notUtf8 (name : String)
deriving DecidableEq, Repr

/-- The message of a source error. -/
def SourceError.message : SourceError → String
  | unreadable name failure => "cannot read " ++ name ++ ": " ++ failure.message
  | notUtf8 name => name ++ " is not valid UTF-8"

/-- A named text. -/
structure Source where
  name : String
  text : String
deriving DecidableEq, Repr

namespace Source

/-- The source that a reader delivers, by the bytes that it ended with or its failure. -/
def ofBytes (name : String) : Except ReadFailure ByteArray → Except SourceError Source
  | .error failure => .error (.unreadable name failure)
  | .ok bytes =>
    match String.fromUTF8? bytes with
    | some text => .ok ⟨name, text⟩
    | none => .error (.notUtf8 name)

/-- The run that reads a program from a source. -/
def parseRun (s : Source) : Outcome Program := Kay.parseRun s.text

end Source

/-- Why a file holds no program. -/
inductive FileError where
  | source (e : SourceError)
  | syntaxError (e : SyntaxError)
deriving DecidableEq, Repr

/-- The program in a file, by the bytes of the file or why there are none. -/
def parseFile (name : String) (bytes : Except ReadFailure ByteArray) : Except FileError Program :=
  match Source.ofBytes name bytes with
  | .error e => .error (.source e)
  | .ok s =>
    match parse s.text with
    | .error e => .error (.syntaxError e)
    | .ok p => .ok p

end Kay
