import Kay.Command.Run
import Kay.Proofs.Command.Respond

/-!
# The output of a session

What a session puts out is what it puts out for its replies, one after the other, and a farewell.
Only a reply that loads a file needs the reader; without one, the output is there whatever the
reader does (`serveAll_eq_pure`).
-/

namespace Kay

open Log (Filter)

namespace Reply

/-- Whether a reply needs a file. -/
def Loads (r : Reply) : Prop := ∃ path, r = .load path

/-- What a reply that needs no file prints. -/
def stdout : Reply → String
  | .cleared => "Cleared\n"
  | .help => Session.helpText
  | .unknownCommand => "Unknown command. Type :help for help.\n"
  | .submitted text =>
    match parse text with
    | .ok p => p.outline
    | .error _ => ""
  | .quit | .load _ | .heldBack _ | .dropped _ => ""

/-- What is said beside the output for a reply that needs no file. -/
def notices : Reply → List Notice
  | .submitted text =>
    match parse text with
    | .ok _ => []
    | .error e => (Transcript.said e.message).notices
  | _ => []

end Reply

namespace Transcript

@[simp] theorem stdout_append (a b : Transcript) : (a ++ b).stdout = a.stdout ++ b.stdout := rfl

@[simp] theorem notices_append (a b : Transcript) : (a ++ b).notices = a.notices ++ b.notices := rfl

@[simp] theorem stdout_logged (f : Filter) (es : List Event) : (logged f es).stdout = "" := rfl

@[simp] theorem notices_logged (f : Filter) (es : List Event) : (logged f es).notices = [] := rfl

end Transcript

namespace Session

open Transcript

variable {m : Type → Type} [Monad m]

private theorem stdout_shown (f : Filter) (text : String) :
    (shown f text).stdout = (Reply.submitted text).stdout := by
  rw [shown, Reply.stdout, parse]
  cases (parseRun text).result <;> simp [printed, said]

private theorem notices_shown (f : Filter) (text : String) :
    (shown f text).notices = (Reply.submitted text).notices := by
  rw [shown, Reply.notices, parse]
  cases (parseRun text).result <;> simp [printed, said]

/-- Without a file to load, the output for a reply is there whatever the reader does. -/
private theorem perform_eq_pure (read : FileReader m) (f : Filter) (s : Session) {r : Reply}
    (h : ¬ r.Loads) :
    ∃ t, perform read f s r = pure t ∧ t.stdout = r.stdout ∧ t.notices = r.notices := by
  cases r with
  | load path => exact absurd ⟨path, rfl⟩ h
  | submitted text =>
    exact ⟨_, rfl, by simp [counted, stdout_shown], by simp [counted, notices_shown]⟩
  | heldBack depth =>
    refine ⟨_, rfl, ?_⟩
    split <;> exact ⟨rfl, rfl⟩
  | _ => exact ⟨_, rfl, rfl, rfl⟩

/-- The output of a session without files to load: that for its replies in order, and the
farewell. -/
theorem serveAll_eq_pure [LawfulMonad m] (read : FileReader m) (f : Filter) {s : Session}
    {lines : List String} (h : ∀ r ∈ (s.respondAll lines).1, ¬ r.Loads) :
    ∃ t, serveAll read f s lines = pure t ∧
      t.stdout = String.join ((s.respondAll lines).1.map Reply.stdout) ++ "Goodbye!\n" ∧
      t.notices = (s.respondAll lines).1.flatMap Reply.notices := by
  induction lines generalizing s with
  | nil => exact ⟨farewell f, rfl, rfl, rfl⟩
  | cons l ls ih =>
    rcases hr : s.respond l with ⟨r, s'⟩
    by_cases hquit : r = .quit
    · subst hquit
      rw [respondAll_quit hr]
      refine ⟨silent ++ farewell f, ?_, rfl, rfl⟩
      simp [serveAll, serve, hr, perform]
    · rw [respondAll_cons hr hquit] at h ⊢
      obtain ⟨hload, hrest⟩ := List.forall_mem_cons.mp h
      obtain ⟨t, ht, hstdout, hnotices⟩ := perform_eq_pure read f s' hload
      obtain ⟨u, hu, hstdout', hnotices'⟩ := ih hrest
      refine ⟨t ++ u, ?_, ?_, ?_⟩
      · simp [serveAll, serve, hr, ht, hu, hquit]
      · rw [stdout_append, hstdout, hstdout', List.map_cons, String.join_cons, String.append_assoc]
      · rw [notices_append, hnotices, hnotices', List.flatMap_cons]

end Session

end Kay
