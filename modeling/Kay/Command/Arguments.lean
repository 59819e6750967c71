/-!
# Command lines

What a command line asks for. The flag that makes a run verbose may stand on either side of the
name of the command, once on each; a group of short flags is written behind one dash; what stands
behind `--` is no flag. A command line is read from left to right, and the first argument that asks
for help, or that makes no sense, settles the matter.
-/

namespace Kay

/-- What is to be done. -/
inductive Command where
  | parse (file : String) (pretty : Bool)
  | tokens (file : String)
  | format (file : String)
  | tree (file : String)
  | check (files : List String)
  | session
deriving DecidableEq, Repr

/-- A command, and whether the run is verbose. -/
structure Invocation where
  command : Command
  verbose : Bool
deriving DecidableEq, Repr

/-- What a command line asks for. -/
inductive Request where
  | run (invocation : Invocation)
  | help
deriving DecidableEq, Repr

/-- Why reading a command line stops early. -/
inductive Interrupt where
  | refused
  | help
deriving DecidableEq, Repr

namespace Arguments

/-! ## Flags and files -/

/-- The names of commands. -/
inductive CommandName where
  | parse
  | tokens
  | format
  | tree
  | check
  | session
deriving DecidableEq, Repr

namespace CommandName

/-- The command of a given name. -/
def ofString? (s : String) : Option CommandName :=
  [("parse", parse), ("tokens", tokens), ("fmt", format), ("tree", tree), ("check", check),
    ("repl", session)].lookup s

/-- Whether a command has the flag for laid out output. -/
def takesPretty : CommandName → Bool
  | parse => true
  | _ => false

/-- Whether a command may take one more file behind the given number of files. -/
def takesFile : CommandName → Nat → Bool
  | check, _ => true
  | session, _ => false
  | _, n => n = 0

/-- The command with its files, if these are all that it needs. -/
def complete? (pretty : Bool) : CommandName → List String → Option Command
  | parse, [file] => some (.parse file pretty)
  | tokens, [file] => some (.tokens file)
  | format, [file] => some (.format file)
  | tree, [file] => some (.tree file)
  | check, files => some (.check files)
  | session, [] => some .session
  | _, _ => none

end CommandName

/-- What has been read on one side of the name of the command. -/
structure Progress where
  verbose : Bool
  pretty : Bool
  files : List String
deriving DecidableEq, Repr

namespace Progress

/-- Nothing has been read. -/
def start : Progress := ⟨false, false, []⟩

/-- A flag, by its letter. A flag may not be given twice. -/
def flag (takesPretty : Bool) (p : Progress) (letter : Char) : Except Interrupt Progress :=
  if letter = 'h' then .error .help
  else if letter = 'v' ∧ p.verbose = false then .ok { p with verbose := true }
  else if letter = 'p' ∧ takesPretty ∧ p.pretty = false then .ok { p with pretty := true }
  else .error .refused

/-- A flag, by its long name. -/
def longFlag (takesPretty : Bool) (p : Progress) (name : String) : Except Interrupt Progress :=
  match [("help", 'h'), ("verbose", 'v'), ("pretty", 'p')].lookup name with
  | some letter => p.flag takesPretty letter
  | none => .error .refused

/-- A file. Its name may not be empty. -/
def file (command : CommandName) (p : Progress) (name : String) : Except Interrupt Progress :=
  if name ≠ "" ∧ command.takesFile p.files.length then
    .ok { p with files := p.files ++ [name] }
  else .error .refused

/-- The flags that an argument stands for, or nothing if it is no flag. A lone dash is none. -/
def flags? (takesPretty : Bool) (p : Progress) (argument : String) :
    Option (Except Interrupt Progress) :=
  match argument.toList with
  | '-' :: '-' :: name => some (p.longFlag takesPretty (String.ofList name))
  | '-' :: letter :: letters => some ((letter :: letters).foldlM (flag takesPretty) p)
  | _ => none

end Progress

/-! ## Reading -/

/-- What stands behind the name of a command. -/
def readTail (command : CommandName) (p : Progress) : List String → Except Interrupt Progress
  | [] => .ok p
  | argument :: arguments =>
    if argument = "--" then arguments.foldlM (Progress.file command) p
    else
      match p.flags? command.takesPretty argument with
      | some result => do readTail command (← result) arguments
      | none => do readTail command (← p.file command argument) arguments

/-- What stands behind `help`: the name of a command at most. -/
def readHelp : List String → Except Interrupt Request
  | [] => .error .help
  | [name] =>
    if name = "help" ∨ (CommandName.ofString? name).isSome then .error .help else .error .refused
  | _ => .error .refused

/-- A command line from the flags in front of the name of the command on. -/
def readHead (p : Progress) : List String → Except Interrupt Request
  | [] => .error .refused
  | argument :: arguments =>
    if argument = "--" then .error .refused
    else
      match p.flags? false argument with
      | some result => do readHead (← result) arguments
      | none =>
        match CommandName.ofString? argument with
        | some name => do
          let q ← readTail name .start arguments
          match name.complete? q.pretty q.files with
          | some command => .ok (.run ⟨command, p.verbose || q.verbose⟩)
          | none => .error .refused
        | none => if argument = "help" then readHelp arguments else .error .refused

/-- What a command line asks for, if it makes sense. -/
def read (arguments : List String) : Option Request :=
  match readHead .start arguments with
  | .ok request => some request
  | .error .help => some .help
  | .error .refused => none

end Arguments

end Kay
