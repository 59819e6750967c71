import Kay.Command.Session
import Kay.Proofs.Token.Depth

/-!
# Answers to lines

What a session answers to one line, given the lines that it holds back. It depends on whether the
line is a command where it stands, and on how many blocks are open behind it, counted line by line.
A session itself counts the blocks of everything that is held back, at every line anew. That the two
counts agree (`braceDepth_joined`) rests on line feeds cutting texts into texts: no token and no
comment reaches over the end of a line.

`Session.respondAll` collects the answers to lines in sequence. A session that runs puts out each
answer before it takes the next line; what it puts out for all of them is the subject of
`Kay.Proofs.Command.Output`.
-/

namespace Kay.Session

open Text (isBlank trim)

/-! ## Lines in sequence -/

/-- Lines as they are held back, each with its line feed. -/
def joined (lines : List String) : String := lines.foldr (fun line text ↦ line ++ "\n" ++ text) ""

/-- The net number of blocks that lines leave open, counted line by line. -/
def netDepth (lines : List String) : Int := (lines.map braceDepth).sum

@[simp] theorem joined_nil : joined [] = "" := rfl

@[simp] theorem joined_cons (line : String) (lines : List String) :
    joined (line :: lines) = line ++ "\n" ++ joined lines := rfl

@[simp] theorem joined_append (ls ms : List String) :
    joined (ls ++ ms) = joined ls ++ joined ms := by
  induction ls with
  | nil => simp
  | cons l ls ih => simp [ih, String.append_assoc]

private theorem joined_eq_empty_iff {lines : List String} : joined lines = "" ↔ lines = [] := by
  cases lines <;> simp

@[simp] theorem netDepth_nil : netDepth [] = 0 := rfl

@[simp] theorem netDepth_cons (line : String) (lines : List String) :
    netDepth (line :: lines) = braceDepth line + netDepth lines := by
  rw [netDepth, List.map_cons, List.sum_cons, ← netDepth]

@[simp] theorem netDepth_append (ls ms : List String) :
    netDepth (ls ++ ms) = netDepth ls + netDepth ms := by
  rw [netDepth, List.map_append, List.sum_append, ← netDepth, ← netDepth]

/-- The blocks that are open in a text of whole lines add up over the lines. -/
theorem braceDepth_joined (lines : List String) : braceDepth (joined lines) = netDepth lines := by
  induction lines with
  | nil => exact braceDepth_empty
  | cons line lines ih => rw [joined_cons, braceDepth_lineFeed, ih, netDepth_cons]

/-! ## Runs of lines -/

/-- Whether every line of a run leaves blocks open, and the last one too. -/
def IsOpen (lines : List String) : Prop := ∀ p, p <+: lines → p ≠ [] → 0 < netDepth p

/-- Whether a run of lines is a text: it leaves no block open, but each of its lines before the last
does, and it is not all white space. -/
structure IsComplete (lines : List String) : Prop where
  ne_nil : lines ≠ []
  netDepth_le : netDepth lines ≤ 0
  netDepth_pos : ∀ p, p <+: lines → p ≠ [] → p ≠ lines → 0 < netDepth p
  not_blank : ¬ (joined lines).toList.all isBlank = true

/-- Whether no line of a run is a command where it stands. To discard what is held back is one
anywhere, all others are only at the start. -/
structure IsEntered (lines : List String) : Prop where
  ne_clear : ∀ line ∈ lines, trim line.toList ≠ ":clear".toList
  head_ne_colon : ∀ line ∈ lines.head?, (trim line.toList).head? ≠ some ':'

/-- Whether a run of lines is held back. -/
structure IsHeld (lines : List String) : Prop where
  entered : IsEntered lines
  isOpen : IsOpen lines

theorem prefix_concat_iff {p ls : List String} {l : String} :
    p <+: ls ++ [l] ↔ p <+: ls ∨ p = ls ++ [l] := by
  rw [List.prefix_concat_iff, or_comm]

private theorem isOpen_nil : IsOpen [] := fun _ hp hne ↦ absurd (List.prefix_nil.mp hp) hne

theorem isOpen_concat {ls : List String} {l : String} :
    IsOpen (ls ++ [l]) ↔ IsOpen ls ∧ 0 < netDepth (ls ++ [l]) := by
  constructor
  · intro h
    exact ⟨fun p hp ↦ h p (hp.trans (List.prefix_append _ _)), h _ List.prefix_rfl (by simp)⟩
  · rintro ⟨h, hpos⟩ p hp hne
    rcases prefix_concat_iff.mp hp with hp | rfl
    · exact h p hp hne
    · exact hpos

theorem isComplete_concat {ls : List String} {l : String} :
    IsComplete (ls ++ [l]) ↔ IsOpen ls ∧ netDepth (ls ++ [l]) ≤ 0 ∧
      ¬ (joined (ls ++ [l])).toList.all isBlank = true := by
  constructor
  · rintro ⟨-, hle, hpos, hblank⟩
    refine ⟨fun p hp hne ↦ hpos p (hp.trans (List.prefix_append _ _)) hne ?_, hle, hblank⟩
    rintro rfl
    have hlen := hp.length_le
    rw [List.length_append, List.length_singleton] at hlen
    omega
  · rintro ⟨h, hle, hblank⟩
    refine ⟨by simp, hle, fun p hp hne hne' ↦ ?_, hblank⟩
    exact h p ((prefix_concat_iff.mp hp).resolve_right hne') hne

theorem isEntered_concat {ls : List String} {l : String} :
    IsEntered (ls ++ [l]) ↔ IsEntered ls ∧ trim l.toList ≠ ":clear".toList ∧
      (ls = [] → (trim l.toList).head? ≠ some ':') := by
  constructor
  · rintro ⟨hclear, hcolon⟩
    refine ⟨⟨fun m hm ↦ hclear m (List.mem_append_left _ hm), fun m hm ↦ hcolon m ?_⟩,
      hclear l (by simp), ?_⟩
    · rw [List.head?_append, Option.mem_def.mp hm]
      rfl
    · rintro rfl
      exact hcolon l rfl
  · rintro ⟨h, hclear, hcolon⟩
    refine ⟨fun m hm ↦ ?_, fun m hm ↦ ?_⟩
    · rcases List.mem_append.mp hm with hm | hm
      · exact h.ne_clear m hm
      · exact List.mem_singleton.mp hm ▸ hclear
    · cases ls with
      | nil => exact Option.some.inj hm ▸ hcolon rfl
      | cons k ls => exact h.head_ne_colon m hm

theorem isHeld_nil : IsHeld [] := ⟨⟨by simp, by simp⟩, isOpen_nil⟩

theorem IsHeld.mono {ls ms : List String} (h : IsHeld ms) (hpre : ls <+: ms) : IsHeld ls := by
  refine ⟨⟨fun l hl ↦ h.entered.ne_clear l (hpre.subset hl), fun l hl ↦ ?_⟩,
    fun p hp ↦ h.isOpen p (hp.trans hpre)⟩
  obtain ⟨ks, rfl⟩ := hpre
  refine h.entered.head_ne_colon l ?_
  rw [List.head?_append, Option.mem_def.mp hl]
  rfl

/-! ## One line -/

theorem respond_of_clear {l : String} (h : trim l.toList = ":clear".toList) (s : Session) :
    s.respond l = (.cleared, start) := by
  rw [respond, if_pos h]

theorem respond_of_command {l : String} (hclear : trim l.toList ≠ ":clear".toList)
    (hcolon : (trim l.toList).head? = some ':') :
    start.respond l = (command (trim l.toList), start) := by
  rw [respond, if_neg hclear, if_pos ⟨rfl, hcolon⟩]

/-- What becomes of a line that is no command where it stands, behind lines that are held back. -/
private theorem respond_of_entered {ls : List String} {l : String} (h : IsEntered (ls ++ [l])) :
    respond ⟨joined ls⟩ l = accumulate (joined (ls ++ [l])) := by
  obtain ⟨-, hclear, hcolon⟩ := isEntered_concat.mp h
  rw [respond, if_neg hclear, if_neg fun hc ↦ hcolon (joined_eq_empty_iff.mp hc.1) hc.2]
  simp [String.append_assoc]

theorem respond_of_isHeld {ls : List String} {l : String} (h : IsHeld (ls ++ [l])) :
    respond ⟨joined ls⟩ l = (.heldBack (netDepth (ls ++ [l])), ⟨joined (ls ++ [l])⟩) := by
  have hpos := (isOpen_concat.mp h.isOpen).2
  rw [respond_of_entered h.entered, accumulate, braceDepth_joined, if_pos hpos]

theorem respond_of_isComplete {ls : List String} {l : String} (hentered : IsEntered (ls ++ [l]))
    (h : IsComplete (ls ++ [l])) :
    respond ⟨joined ls⟩ l = (.submitted (joined (ls ++ [l])), start) := by
  rw [respond_of_entered hentered, accumulate, braceDepth_joined,
    if_neg (Int.not_lt.mpr h.netDepth_le), if_neg h.not_blank]

/-- A blank line leaves no block open. -/
theorem braceDepth_of_blank {l : String} (h : l.toList.all isBlank = true) : braceDepth l = 0 := by
  rw [braceDepth_eq, terminals_of_blank h]
  rfl

/-- A blank line is no command. -/
theorem isEntered_of_blank {l : String} (h : l.toList.all isBlank = true) : IsEntered [l] := by
  have htrim : trim l.toList = [] := by
    rw [trim, List.dropWhile_eq_nil_iff.mpr (List.all_eq_true.mp h)]
    rfl
  refine isEntered_concat.mpr ⟨isHeld_nil.entered, ?_, fun _ ↦ ?_⟩
  · rw [htrim]
    decide
  · rw [htrim]
    decide

theorem respond_of_blank {l : String} (h : l.toList.all isBlank = true) :
    start.respond l = (.dropped (l ++ "\n"), start) := by
  have hdepth : netDepth [l] = 0 := by simp [braceDepth_of_blank h]
  have hline : joined [l] = l ++ "\n" := by simp
  have hblank : (joined [l]).toList.all isBlank = true := by
    rw [hline, String.toList_append, List.all_append, h]
    decide
  have hrespond : respond ⟨joined []⟩ l = _ := respond_of_entered (isEntered_of_blank h)
  rw [List.nil_append, accumulate, braceDepth_joined, hdepth, if_neg (by decide), if_pos hblank,
    hline] at hrespond
  exact hrespond

/-! ## Answers in sequence -/

/-- What becomes of lines in sequence, up to one that ends the session, and the session behind
them. -/
def respondAll (s : Session) : List String → List Reply × Session
  | [] => ([], s)
  | line :: lines =>
    match s.respond line with
    | (.quit, s) => ([.quit], s)
    | (reply, s) =>
      let (replies, s) := s.respondAll lines
      (reply :: replies, s)

theorem respondAll_cons {s s' : Session} {l : String} {r : Reply} (h : s.respond l = (r, s'))
    (hr : r ≠ .quit) (ls : List String) :
    s.respondAll (l :: ls) = (r :: (s'.respondAll ls).1, (s'.respondAll ls).2) := by
  rw [respondAll, h]
  split
  · simp_all
  · simp_all

theorem respondAll_quit {s s' : Session} {l : String} (h : s.respond l = (.quit, s'))
    (ls : List String) : s.respondAll (l :: ls) = ([.quit], s') := by
  rw [respondAll, h]

end Kay.Session
