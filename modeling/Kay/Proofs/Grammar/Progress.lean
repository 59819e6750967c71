import Kay.Proofs.Grammar.Termination
import Kay.Proofs.Grammar.Trace

/-!
# The parser makes progress

A loop of the parser ends because each of its rounds reads something, and the tokens of a source are
finitely many. `Consumes` is what the procedures of the parser have to keep for that, wherever they
are called and whatever comes of it: they read tokens off the front of what is ahead, never the end
of input, and they come to no value without reading at all. The end of input is read once, behind a
program.

With the runs that have no bound on their rounds it follows that a parse ends, and how much of a
source it takes (`parser_progresses`).
-/

namespace Kay

open Grammar

namespace Rule

variable {α : Type} {A : Event → Prop} {x : Bool} {s : Stream} {o : Outcome α}

/-! ## Progress of single runs -/

/-- Whether a run reads what is in front of the stream that it leaves, without the end of input, and
one token at least where it comes to a value. -/
structure Consumes (s : Stream) (o : Outcome α) : Prop where
  eq_prepend : s = o.rest.prepend o.reads
  kind_ne : ∀ t ∈ o.reads, t.kind ≠ .endOfInput
  reads_ne_nil : ∀ a, o.result = .ok a → o.reads ≠ []

/-- Whether a rule consumes tokens and comes to its outcome, and to no other, with no more than
`room` levels open at once inside it. -/
structure Progresses (room : Nat) (p : Rule α) (s : Stream) : Prop where
  consumes : Consumes s (p s)
  terminates : ∀ o, Runs room p s o ↔ p s = o

/-- A run that raises the flag has read something. -/
private theorem Tells.consumes (h : Tells A false s o true) : Consumes s o where
  eq_prepend := h.prepend_reads
  kind_ne := h.kind_ne
  reads_ne_nil a ha := Recounts.reads_ne_nil h rfl (by rw [ha]; rfl)

private theorem progresses_level (depth room : Nat) (l : Level) (s : Stream) :
    Progresses room (level l (group depth room)) s where
  consumes := (quiet_level (quietGroup_group depth room) l (fun _ ↦ False) false s).consumes
  terminates _ := runs_iff (runs_level depth room l s)

/-- A statement is reported before anything of it is read, so the flag does not tell. But the stream
gets shorter. -/
private theorem consumes_statement (depth room : Nat) (s : Stream) :
    Consumes s (statement depth room s) := by
  have htells := tells_statement depth room s
  refine ⟨htells.prepend_reads, htells.kind_ne, fun r hr hnil ↦ ?_⟩
  have hlt := length_lt_of_yields_statement ⟨hr, rfl⟩
  have hrest : s = (statement depth room s).rest := by
    have hprepend := htells.prepend_reads
    rwa [← Outcome.reads, hnil, Stream.prepend_nil] at hprepend
  rw [← hrest] at hlt
  exact Nat.lt_irrefl _ hlt

private theorem progresses_statement (depth room : Nat) (s : Stream) :
    Progresses room (statement depth room) s where
  consumes := consumes_statement depth room s
  terminates _ := runs_iff (runs_statement depth room s)

end Rule

open Rule

/-! ## Parses -/

private theorem reads_parseRun (source : String) :
    (parseRun source).reads = (program maxNesting (Stream.ofSource source)).reads :=
  rfl

private theorem pulled_parseRun (source : String) :
    pulled (parseRun source) = pulled (program maxNesting (Stream.ofSource source)) :=
  rfl

/-- **The parser makes progress, and ends on every source.** Wherever it stands, and however many
levels are open, the rules for expressions, for each of their levels and for statements consume a
token at least if they come to a value, and never the end of input. They come to one outcome, with
loops that end because each round leaves fewer tokens ahead, and with no more levels inside than
there is room for.

So does a parse of any source. If it comes to an error, the tokens that were pulled from the scanner
are the first ones of the source, at most all of them. If it comes to a program, every token of the
source was read once, the end of input last. -/
theorem parser_progresses :
    (∀ (depth room : Nat) (s : Stream),
      (∀ l, Progresses room (level l (group depth room)) s) ∧
        Progresses room (expression depth room) s ∧ Progresses room (statement depth room) s) ∧
    ∀ source, (∀ o, Runs maxNesting (program maxNesting) (Stream.ofSource source) o ↔
        program maxNesting (Stream.ofSource source) = o) ∧
      match parse source with
      | .error _ =>
        (parseRun source).events.filter Event.isScan = (pulled (parseRun source)).map .scanned ∧
          pulled (parseRun source) <+: Token.scan source ∧
          (pulled (parseRun source)).length ≤ (Token.scan source).length
      | .ok _ => ∃ ts n, Token.scan source = ts ++ [.endOfInput n] ∧
          (∀ t ∈ ts, t.kind ≠ .endOfInput) ∧ (parseRun source).reads = Token.scan source := by
  refine ⟨fun depth room s ↦ ⟨fun l ↦ progresses_level depth room l s, ?_,
    progresses_statement depth room s⟩, fun source ↦ ⟨fun o ↦ runs_iff (runs_program _ _), ?_⟩⟩
  · rw [expression_eq]
    exact progresses_level depth room .disjunction s
  have hs := Stream.scanned_ofSource source
  rcases program_eq maxNesting hs with ⟨e, heq⟩ | ⟨p, hnil, heq⟩
  · -- A program that fails stops where its body stops.
    have hpulled : pulled (parseRun source) =
        pulled (programBody 0 maxNesting (Stream.ofSource source)) := by
      rw [pulled_parseRun, heq]
      rfl
    have hprefix := pulled_programBody_isPrefix maxNesting (Stream.ofSource source)
    rw [show parse source = .error e from congrArg Outcome.result heq, hpulled]
    exact ⟨scans_program maxNesting hs, hprefix, hprefix.length_le⟩
  · rw [show parse source = .ok p from congrArg Outcome.result heq]
    refine ⟨_, _, rfl, fun t ht ↦ (hs t ht).ne_endOfInput, ?_⟩
    rw [reads_parseRun, heq, ← Stream.toList_ofSource, toList_of_end hnil, pulled]
    exact List.filterMap_append

end Kay
