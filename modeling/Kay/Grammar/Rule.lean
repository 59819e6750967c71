import Kay.Grammar.SyntaxError
import Kay.Log.Event
import Kay.Token.Stream

/-!
# Rules

A rule of the grammar, as a reader of token streams. A run has three results: the value or the
error, the stream where the rule stopped, and an account of what was done. All three are there
whether the rule succeeds or fails, so that a reader can go on behind an error and an account does
not end before the error.

Rules are built from few primitives: `current` and `advance` alone look at the stream, `fail` alone
fails, `many` alone loops, `nested` alone opens and closes levels. A law that these keep, and
sequencing keeps, holds of every rule.
-/

namespace Kay

/-- An entry in the account of a run. -/
inductive Mark where
  /-- Something that is reported. -/
  | event (e : Event)
  /-- A token was read. -/
  | read (token : Token)
  /-- A statement or a parenthesised factor was entered at the given token while the given number of
  others were open. -/
  | opened (depth : Nat) (token : Token)
  /-- The statement or parenthesised factor that was entered last was left. -/
  | closed
deriving DecidableEq, Repr

/-- The event that an entry reports, if any. -/
def Mark.event? : Mark → Option Event
  | event e => some e
  | read _ | opened _ _ | closed => none

/-- The token that an entry says to have been read, if any. -/
def Mark.read? : Mark → Option Token
  | read t => some t
  | event _ | opened _ _ | closed => none

/-- The number of levels that are open behind an entry, if `n` are open in front of it. -/
def Mark.levels (n : Nat) : Mark → Nat
  | opened _ _ => n + 1
  | closed => n - 1
  | event _ | read _ => n

/-- The results of one run of a rule. -/
structure Outcome (α : Type) where
  /-- The value, or why there is none. -/
  result : Except SyntaxError α
  /-- The stream where the rule stopped. -/
  rest : Stream
  /-- What was done, in order. -/
  log : List Mark

/-- The events of a run. -/
def Outcome.events {α : Type} (o : Outcome α) : List Event := o.log.filterMap Mark.event?

/-- The tokens that a run has read. -/
def Outcome.reads {α : Type} (o : Outcome α) : List Token := o.log.filterMap Mark.read?

/-- The number of levels that are open behind some entries, if `n` are open in front of them. -/
def openLevels (n : Nat) (log : List Mark) : Nat := log.foldl Mark.levels n

/-- A reader of token streams. -/
def Rule (α : Type) : Type := Stream → Outcome α

namespace Rule

variable {α β : Type}

/-! ## Sequencing -/

/-- Reads nothing. -/
protected def pure (a : α) : Rule α := fun s ↦ ⟨.ok a, s, []⟩

/-- Goes on, where the first rule succeeded, with a second one that may depend on its value. -/
protected def bind (p : Rule α) (f : α → Rule β) : Rule β := fun s ↦
  match p s with
  | ⟨.ok a, s', log⟩ => let o := f a s'; ⟨o.result, o.rest, log ++ o.log⟩
  | ⟨.error e, s', log⟩ => ⟨.error e, s', log⟩

/-- Changes the value alone. -/
protected def map (f : α → β) (p : Rule α) : Rule β := fun s ↦
  let o := p s
  ⟨o.result.map f, o.rest, o.log⟩

instance : Monad Rule where
  pure := Rule.pure
  bind := Rule.bind
  map := Rule.map

@[simp] theorem pure_apply (a : α) (s : Stream) : (pure a : Rule α) s = ⟨.ok a, s, []⟩ := rfl

@[simp] theorem map_apply (f : α → β) (p : Rule α) (s : Stream) :
    (f <$> p) s = ⟨(p s).result.map f, (p s).rest, (p s).log⟩ := rfl

theorem bind_apply_ok {p : Rule α} {f : α → Rule β} {s s' : Stream} {a : α} {log : List Mark}
    (h : p s = ⟨.ok a, s', log⟩) :
    (p >>= f) s = ⟨(f a s').result, (f a s').rest, log ++ (f a s').log⟩ := by
  simp only [bind, Rule.bind, h]

theorem bind_apply_error {p : Rule α} {f : α → Rule β} {s s' : Stream} {e : SyntaxError}
    {log : List Mark} (h : p s = ⟨.error e, s', log⟩) : (p >>= f) s = ⟨.error e, s', log⟩ := by
  simp only [bind, Rule.bind, h]

private theorem map_id_rule (p : Rule α) : id <$> p = p := by
  funext s
  rw [map_apply]
  rcases p s with ⟨_ | _, _, _⟩ <;> rfl

private theorem bind_pure_comp_rule (f : α → β) (p : Rule α) :
    (p >>= fun a ↦ pure (f a)) = f <$> p := by
  funext s
  simp only [bind, Rule.bind, map_apply]
  rcases p s with ⟨_ | _, _, _⟩ <;> simp [Except.map]

private theorem pure_bind_rule (a : α) (f : α → Rule β) : pure a >>= f = f a := by
  funext s
  simp [bind, pure, Rule.bind, Rule.pure]

private theorem bind_assoc_rule {γ : Type} (p : Rule α) (f : α → Rule β) (g : β → Rule γ) :
    p >>= f >>= g = p >>= fun a ↦ f a >>= g := by
  funext s
  simp only [bind, Rule.bind]
  cases hp : p s with
  | mk result rest log =>
    cases result with
    | error e => rfl
    | ok a =>
      simp only
      cases hf : f a rest with
      | mk result' rest' log' => cases result' <;> simp

instance : LawfulMonad Rule := .mk' Rule map_id_rule pure_bind_rule bind_assoc_rule
  (fun _ _ ↦ rfl) (fun _ _ ↦ rfl) (fun _ _ ↦ rfl) bind_pure_comp_rule

/-! ## Primitives -/

/-- The token to be read next, left in place. -/
def current : Rule Token := fun s ↦ ⟨.ok s.current, s, []⟩

/-- Reads one token. The one behind it is scanned at once, unless the end has been scanned. -/
def advance : Rule Token := fun s ↦
  ⟨.ok s.current, s.advance, .read s.current ::
    if s.tokens.isEmpty then [] else [.event (.scanned s.advance.current)]⟩

/-- Stops with an error. -/
def fail (e : SyntaxError) : Rule α := fun s ↦ ⟨.error e, s, []⟩

/-- Adds an entry to the account. -/
def note (m : Mark) : Rule Unit := fun s ↦ ⟨.ok (), s, [m]⟩

/-- Reports an event. -/
def report (e : Event) : Rule Unit := note (.event e)

/-- Runs a rule one level deeper, where `depth` levels are open. The level is entered at the current
token, and it is left however the run ends. -/
def nested (depth : Nat) (p : Rule α) : Rule α := fun s ↦
  let o := p s
  ⟨o.result, o.rest, .opened depth s.current :: (o.log ++ [.closed])⟩

/-- The rounds of `many`, no more than there are tokens in a list. -/
def rounds (next : Token → Option (Rule α)) : List Token → Rule (List α)
  | [] => pure []
  | _ :: ts => do
    match next (← current) with
    | none => pure []
    | some item => do
      let a ← item
      (a :: ·) <$> rounds next ts

/-- Reads items for as long as the current token calls for one. Items consume at least one token
each, so there are no more rounds than tokens ahead. -/
def many (next : Token → Option (Rule α)) : Rule (List α) := fun s ↦ rounds next s.tokens s

/-! ## Expectations -/

/-- Stops at the current token, which is not what was expected. -/
def unexpected (context : Context) (expected : Expectation) : Rule α := do
  fail (.unexpectedToken context expected (← current))

/-- Reads a token that is what the alternative asks for. -/
def expect (alternative : Alternative) (context : Context) : Rule Token := do
  if alternative.admits (← current) then advance else unexpected context (.one alternative)

/-- Reads one separator. -/
def expectSeparator (text : String) (context : Context) : Rule Token :=
  expect (.lexeme .separator text) context

end Rule

end Kay
