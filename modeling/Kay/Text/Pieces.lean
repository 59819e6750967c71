/-!
# Pieces of a text

A text is cut at every occurrence of one character. There is always one piece more than there are
cuts, so joining the pieces with the character gives the text back.
-/

namespace Kay.Text

/-- The pieces of a text between the occurrences of a character. -/
def pieces (cut : Char) : List Char → List (List Char)
  | [] => [[]]
  | c :: cs =>
    if c = cut then [] :: pieces cut cs
    else
      match pieces cut cs with
      | [] => [[c]]
      | p :: ps => (c :: p) :: ps

theorem pieces_ne_nil (cut : Char) (cs : List Char) : pieces cut cs ≠ [] := by
  unfold pieces
  split
  · simp
  · split
    · simp
    · split <;> simp

/-- Joining the pieces with the character that was cut at gives the text back. -/
theorem intercalate_pieces (cut : Char) (cs : List Char) :
    [cut].intercalate (pieces cut cs) = cs := by
  induction cs with
  | nil => rfl
  | cons c cs ih =>
    have hne := pieces_ne_nil cut cs
    unfold pieces
    split
    · subst c
      cases hp : pieces cut cs with
      | nil => exact absurd hp hne
      | cons p ps =>
        rw [hp] at ih
        rw [List.intercalate_cons_cons, ih]
        rfl
    · cases hp : pieces cut cs with
      | nil => exact absurd hp hne
      | cons p ps =>
        rw [hp] at ih
        cases ps with
        | nil => simp_all [List.intercalate]
        | cons q qs =>
          rw [List.intercalate_cons_cons] at ih ⊢
          simp_all

/-- A text can be cut at the first occurrence of a character in one way. -/
theorem cut_unique {cut : Char} {cs cs' ds ds' : List Char} (h : cut ∉ cs) (h' : cut ∉ cs')
    (heq : cs ++ cut :: ds = cs' ++ cut :: ds') : cs = cs' ∧ ds = ds' := by
  induction cs generalizing cs' with
  | nil =>
    cases cs' with
    | nil => exact ⟨rfl, (List.cons.inj heq).2⟩
    | cons c cs' => exact absurd (List.cons.inj heq).1 (List.ne_of_not_mem_cons h')
  | cons c cs ih =>
    cases cs' with
    | nil => exact absurd (List.cons.inj heq).1.symm (List.ne_of_not_mem_cons h)
    | cons c' cs' =>
      obtain ⟨rfl, htail⟩ := List.cons.inj heq
      obtain ⟨rfl, hds⟩ :=
        ih (List.not_mem_of_not_mem_cons h) (List.not_mem_of_not_mem_cons h') htail
      exact ⟨rfl, hds⟩

/-- A line without the carriage return that may stand in front of its line feed. -/
def dropReturn (line : List Char) : List Char :=
  if line.getLast? = some '\r' then line.dropLast else line

/-- The lines of an input. A carriage return belongs to the line feed behind it; a last line without
line feed counts as one, unless it is empty. -/
def inputLines (cs : List Char) : List (List Char) :=
  let ps := pieces '\n' cs
  let last := ps.getLastD []
  ps.dropLast.map dropReturn ++ (if last.isEmpty then [] else [last])

end Kay.Text
