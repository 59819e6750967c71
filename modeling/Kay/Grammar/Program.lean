import Kay.Grammar.Statement

/-!
# The rules of programs

```text
Program      := "main" "{" Declarations Statements "}" end of input
Declarations := { ( "integer" | "bool" ) Identifier { "," Identifier } ";" }
```

The limit on nesting is an argument of the rule for programs. No text has more levels than tokens,
so the number of tokens is a limit that no text reaches: `parseUnlimited` reads with it, and is the
reader that `parse` would be without a limit.
-/

namespace Kay

namespace Rule

/-! ## Declarations -/

/-- One declared name. -/
def declaredName (ty : VarType) : Rule Declaration := do
  let name ← expect (.kind .identifier) .declaration
  report (.declared name.text ty)
  pure ⟨ty, ⟨name.text⟩⟩

/-- The names behind a type, of which there is at least one. -/
def declaredNames (ty : VarType) : Rule (List Declaration) := do
  let first ← declaredName ty
  let others ← many fun t ↦
    if t.isSeparator "," then some (do
      let _ ← advance
      declaredName ty)
    else none
  let _ ← expectSeparator ";" .declaration
  pure (first :: others)

/-- The type that a token names. -/
def typeOf? (t : Token) : Option VarType :=
  if t.kind = .keyword then VarType.ofKeyword? t.text else none

/-- Declarations, for as long as a type is ahead. -/
def declarations : Rule (List Declaration) := do
  let groups ← many fun t ↦ (typeOf? t).map fun ty ↦ do
    let _ ← advance
    declaredNames ty
  pure groups.flatten

/-! ## Programs -/

/-- A whole program, where `depth` levels are open and `room` more may be opened. -/
def programFrom (depth room : Nat) : Rule Program := do
  report .programStarted
  let _ ← expect (.lexeme .keyword "main") .program
  let _ ← expectSeparator "\x7b" .program
  let declarations ← declarations
  let members ← statements (statement depth room)
  let _ ← expectSeparator "\x7d" .program
  let _ ← expect (.kind .endOfInput) .program
  report (.programParsed declarations.length members.length)
  pure ⟨declarations, ⟨members⟩⟩

/-- A whole program, with at most `limit` levels open at once. -/
def program (limit : Nat) : Rule Program := programFrom 0 limit

/-- A run of a rule from the start of a source, whose first token is scanned before the rule
begins. -/
def run {α : Type} (p : Rule α) (source : String) : Outcome α :=
  let s := Stream.ofSource source
  let o := p s
  { o with log := .event (.scanned s.current) :: o.log }

end Rule

/-- The number of statements and parenthesised factors that may be open at once. -/
def maxNesting : Nat := 128

/-- The run that reads a program from a source. -/
def parseRun (source : String) : Outcome Program := (Rule.program maxNesting).run source

/-- The program that a source is the text of. -/
def parse (source : String) : Except SyntaxError Program := (parseRun source).result

/-- The program that a source is the text of, with at most `limit` levels open at once. -/
def parseWithin (limit : Nat) (source : String) : Except SyntaxError Program :=
  ((Rule.program limit).run source).result

/-- The run that reads a program from a source, whatever its nesting. -/
def parseUnlimitedRun (source : String) : Outcome Program :=
  (Rule.program (Stream.ofSource source).tokens.length).run source

/-- The program that a source is the text of, whatever its nesting. -/
def parseUnlimited (source : String) : Except SyntaxError Program :=
  (parseUnlimitedRun source).result

end Kay
