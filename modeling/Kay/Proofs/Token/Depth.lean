import Kay.Proofs.Token.Seam
import Mathlib.Algebra.BigOperators.Group.List.Basic
import Mathlib.Algebra.Ring.Int.Defs

/-!
# Open blocks

How many blocks a text leaves open can be counted on its terminals, and adds up along the text: over
terminals in sequence (`openBlocks_append`), and so over the parts that line feeds cut a text into
(`braceDepth_lineFeed`). A text may close more blocks than it opens, so counts can be negative.
-/

namespace Kay

open Text

/-- The net number of blocks that a terminal opens. -/
def Terminal.braceWeight (t : Terminal) : Int :=
  if t = .separator "\x7b" then 1 else if t = .separator "\x7d" then -1 else 0

/-- The net number of blocks that terminals leave open. -/
def openBlocks (ts : List Terminal) : Int := (ts.map Terminal.braceWeight).sum

@[simp] theorem openBlocks_nil : openBlocks [] = 0 := rfl

@[simp] theorem openBlocks_cons (t : Terminal) (ts : List Terminal) :
    openBlocks (t :: ts) = t.braceWeight + openBlocks ts := by
  rw [openBlocks, List.map_cons, List.sum_cons, ← openBlocks]

@[simp] theorem openBlocks_append (ts us : List Terminal) :
    openBlocks (ts ++ us) = openBlocks ts + openBlocks us := by
  rw [openBlocks, List.map_append, List.sum_append, ← openBlocks, ← openBlocks]

private theorem braceWeight_terminal (t : Token) : t.terminal.braceWeight = t.braceWeight := by
  obtain ⟨kind, text, span⟩ := t
  simp [Terminal.braceWeight, Token.braceWeight, Token.terminal, Token.isSeparator, Token.is]

/-- The blocks that a text leaves open are those of its terminals. -/
theorem braceDepth_eq (source : String) :
    braceDepth source = openBlocks (terminals source.toList) := by
  have hsum : ∀ ts : List Token,
      ts.foldr (·.braceWeight + ·) 0 = openBlocks (ts.map Token.terminal) := by
    intro ts
    induction ts with
    | nil => rfl
    | cons t ts ih =>
      rw [List.foldr_cons, ih, List.map_cons, openBlocks_cons, braceWeight_terminal]
  rw [braceDepth, hsum, map_terminal_scan, openBlocks_append]
  exact Int.add_zero _

@[simp] theorem braceDepth_empty : braceDepth "" = 0 := by
  rw [braceDepth_eq]
  simp

theorem toList_lineFeed (a b : String) :
    (a ++ "\n" ++ b).toList = a.toList ++ '\n' :: b.toList := by
  simp

/-- The blocks that are open behind a line feed are those of both parts. -/
theorem braceDepth_lineFeed (a b : String) :
    braceDepth (a ++ "\n" ++ b) = braceDepth a + braceDepth b := by
  rw [braceDepth_eq, toList_lineFeed, terminals_lineFeed, openBlocks_append, ← braceDepth_eq,
    ← braceDepth_eq]

/-- White space has no terminals. -/
theorem terminals_of_blank {cs : List Char} (h : cs.all isBlank = true) :
    terminals cs = [] := by
  induction cs with
  | nil => exact terminals_nil
  | cons c cs ih =>
    rw [List.all_cons, Bool.and_eq_true] at h
    rw [terminals_blank h.1, ih h.2]

end Kay
