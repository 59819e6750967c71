import Kay.Proofs.Grammar.Derivation
import Kay.Proofs.Token.Depth

/-!
# Blocks

The braces of a program match: between the first and the last of them stand terminals that close
what they open and never close more (`DerivesProgram.exists_nested`). So from its first brace on and
up to its last, a program always has a block open.

`Nested` follows the braces and forgets all other structure. That the grammar derives nothing else
takes one case for each of its rules; what is said of counts is then said along `Nested` alone.
-/

namespace Kay

namespace Terminal

/-- Whether a terminal is none of those that open or close blocks, nor one that the grammar has no
use for. -/
structure IsPlain (t : Terminal) : Prop where
  kind_ne : t.kind ≠ .other
  ne_opening : t ≠ .separator "\x7b"
  ne_closing : t ≠ .separator "\x7d"

private theorem isPlain_of_kind {t : Terminal} (h : t.kind ≠ .other) (h' : t.kind ≠ .separator) :
    t.IsPlain := by
  refine ⟨h, ?_, ?_⟩ <;> rintro rfl <;> exact h' rfl

private theorem isPlain_separator {text : String} (h : text ≠ "\x7b" ∧ text ≠ "\x7d") :
    (separator text).IsPlain := by
  refine ⟨by simp, fun heq ↦ h.1 ?_, fun heq ↦ h.2 ?_⟩
  · exact congrArg Terminal.text heq
  · exact congrArg Terminal.text heq

private theorem IsPlain.braceWeight_eq {t : Terminal} (h : t.IsPlain) : t.braceWeight = 0 := by
  rw [braceWeight, if_neg h.ne_opening, if_neg h.ne_closing]

end Terminal

/-- Terminals whose braces match. -/
inductive Nested : List Terminal → Prop
  | nil : Nested []
  | plain {t : Terminal} {w : List Terminal} (h : t.IsPlain) (hw : Nested w) : Nested (t :: w)
  | block {u w : List Terminal} (hu : Nested u) (hw : Nested w) :
      Nested (.separator "\x7b" :: (u ++ .separator "\x7d" :: w))

namespace Nested

theorem append {u w : List Terminal} (hu : Nested u) (hw : Nested w) : Nested (u ++ w) := by
  induction hu with
  | nil => exact hw
  | plain h _ ih => exact .plain h ih
  | @block u v hu _ _ ihv =>
    rw [List.cons_append, List.append_assoc, List.cons_append]
    exact .block hu ihv

theorem concat {t : Terminal} {w : List Terminal} (hw : Nested w) (h : t.IsPlain) :
    Nested (w ++ [t]) :=
  hw.append (.plain h .nil)

/-- All blocks are closed at the end. -/
theorem openBlocks_eq_zero {w : List Terminal} (h : Nested w) : openBlocks w = 0 := by
  induction h with
  | nil => rfl
  | plain h _ ih => rw [openBlocks_cons, h.braceWeight_eq, ih, Int.add_zero]
  | block _ _ ihu ihw =>
    rw [openBlocks_cons, openBlocks_append, openBlocks_cons, ihu, ihw]
    decide

/-- Nowhere are more blocks closed than opened. -/
private theorem openBlocks_nonneg {w p : List Terminal} (h : Nested w) (hp : p <+: w) :
    0 ≤ openBlocks p := by
  induction h generalizing p with
  | nil => rw [List.prefix_nil.mp hp, openBlocks_nil]
  | @plain t w h _ ih =>
    rcases List.prefix_cons_iff.mp hp with rfl | ⟨q, rfl, hq⟩
    · rw [openBlocks_nil]
    · rw [openBlocks_cons, h.braceWeight_eq, Int.zero_add]
      exact ih hq
  | @block u w hu _ ihu ihw =>
    rcases List.prefix_cons_iff.mp hp with rfl | ⟨q, rfl, hq⟩
    · rw [openBlocks_nil]
    rw [openBlocks_cons, show (Terminal.separator "\x7b").braceWeight = 1 from by decide]
    rcases List.prefix_or_prefix_of_prefix hq (List.prefix_append u _) with hq | ⟨r, rfl⟩
    · have := ihu hq
      omega
    -- The inner block is closed, and what is behind it closes no more.
    rw [openBlocks_append, hu.openBlocks_eq_zero]
    rcases List.prefix_cons_iff.mp ((List.prefix_append_right_inj u).mp hq) with rfl | ⟨r, rfl, hr⟩
    · decide
    · have := ihw hr
      rw [openBlocks_cons, show (Terminal.separator "\x7d").braceWeight = -1 from by decide]
      omega

theorem kind_ne_other {w : List Terminal} (h : Nested w) : ∀ t ∈ w, t.kind ≠ .other := by
  induction h with
  | nil => simp
  | plain h _ ih => exact List.forall_mem_cons.mpr ⟨h.kind_ne, ih⟩
  | block _ _ ihu ihw =>
    simp only [List.mem_cons, List.mem_append]
    rintro t (rfl | ht | rfl | ht)
    · decide
    · exact ihu t ht
    · decide
    · exact ihw t ht

end Nested

namespace Grammar

open Terminal

/-! ## What the grammar derives -/

theorem DerivesExpression.nested {l : Level} {w : List Terminal} {e : Expression} {n : Nat}
    (h : DerivesExpression l w e n) : Nested w := by
  induction h with
  | atom h => cases h <;> exact .plain (isPlain_of_kind (by simp) (by simp)) .nil
  | group _ ih =>
    exact .plain (isPlain_separator (by decide)) (ih.concat (isPlain_separator (by decide)))
  | not _ ih => exact .plain (isPlain_of_kind (by decide) (by decide)) ih
  | operand _ _ ih => exact ih
  | chain _ _ _ _ ihu ihv =>
    exact ihu.append (.plain (isPlain_of_kind (by simp) (by simp)) ihv)
  | compare _ _ _ ihu ihv =>
    exact ihu.append (.plain (isPlain_of_kind (by simp) (by simp)) ihv)

/-- The test of a conditional or a loop, behind its keyword. -/
private theorem nested_test {word : String} {w u : List Terminal} (hw : Nested w) (hu : Nested u) :
    Nested (.keyword word :: .separator "(" :: (w ++ .separator ")" :: u)) :=
  .plain (isPlain_of_kind (by simp) (by simp)) (.plain (isPlain_separator (by decide))
    (hw.append (.plain (isPlain_separator (by decide)) hu)))

mutual

theorem DerivesStatement.nested {w : List Terminal} {s : Statement} {n : Nat} :
    DerivesStatement w s n → Nested w
  | .skip => .plain (isPlain_separator (by decide)) .nil
  | .assignment name he => .plain (isPlain_of_kind (by simp) (by simp))
      (.plain (isPlain_of_kind (by decide) (by decide))
        (he.nested.concat (isPlain_separator (by decide))))
  | .ifThen hb ht => nested_test hb.nested ht.nested
  | .ifThenElse hb ht _ he => nested_test hb.nested
      (ht.nested.append (.plain (isPlain_of_kind (by decide) (by decide)) he.nested))
  | .loop hb hs => nested_test hb.nested hs.nested
  | .block h => .block h.nested .nil

theorem DerivesStatements.nested {w : List Terminal} {ms : List Statement} {n : Nat} :
    DerivesStatements w ms n → Nested w
  | .nil => .nil
  | .cons hs hms => hs.nested.append hms.nested

end

theorem DerivesNames.nested {ty : VarType} {w : List Terminal} {ds : List Declaration}
    (h : DerivesNames ty w ds) : Nested w := by
  induction h with
  | last name => exact .plain (isPlain_of_kind (by simp) (by simp)) .nil
  | cons name _ ih =>
    exact .plain (isPlain_of_kind (by simp) (by simp)) (.plain (isPlain_separator (by decide)) ih)

theorem DerivesDeclarations.nested {w : List Terminal} {ds : List Declaration}
    (h : DerivesDeclarations w ds) : Nested w := by
  induction h with
  | nil => exact .nil
  | cons h _ ih =>
    exact .plain (isPlain_of_kind (by simp) (by simp))
      (h.nested.append (.plain (isPlain_separator (by decide)) ih))

/-- The terminals of a program whose block holds the given ones. -/
abbrev programTerminals (body : List Terminal) : List Terminal :=
  .keyword "main" :: .separator "\x7b" :: (body ++ [.separator "\x7d"])

/-- A program is one block, with nothing in front of it but its keyword. -/
theorem DerivesProgram.exists_nested {ts : List Terminal} {p : Program} {n : Nat}
    (h : DerivesProgram ts p n) :
    ∃ body, Nested body ∧ ts = programTerminals body ++ [.endOfInput] := by
  obtain ⟨hds, hms⟩ := h
  exact ⟨_, hds.nested.append hms.nested, by simp⟩

theorem nested_programTerminals {body : List Terminal} (h : Nested body) :
    Nested (programTerminals body) :=
  .plain (isPlain_of_kind (by decide) (by decide)) (.block h .nil)

/-- From the first brace on and up to the last, a block is open. -/
theorem openBlocks_pos_of_isPrefix {body p : List Terminal} (h : Nested body)
    (hp : p <+: programTerminals body) (hfirst : 2 ≤ p.length)
    (hlast : p.length < (programTerminals body).length) : 0 < openBlocks p := by
  obtain ⟨q, rfl⟩ : ∃ q, p = .keyword "main" :: .separator "\x7b" :: q := by
    match p, hfirst with
    | t :: u :: q, _ =>
      obtain ⟨rfl, htail⟩ := List.cons_prefix_cons.mp hp
      obtain ⟨rfl, -⟩ := List.cons_prefix_cons.mp htail
      exact ⟨q, rfl⟩
  have hq : q <+: body := by
    have hq := (List.cons_prefix_cons.mp (List.cons_prefix_cons.mp hp).2).2
    refine (List.prefix_concat_iff.mp hq).resolve_left ?_
    rintro rfl
    exact Nat.lt_irrefl _ hlast
  have hnonneg := h.openBlocks_nonneg hq
  have hopening : openBlocks [.keyword "main", .separator "\x7b"] = 1 := by decide
  rw [show Terminal.keyword "main" :: .separator "\x7b" :: q
    = [.keyword "main", .separator "\x7b"] ++ q from rfl, openBlocks_append, hopening]
  omega

end Grammar

end Kay
