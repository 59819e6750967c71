import Kay.Proofs.Command.Respond

/-!
# What becomes of the lines of a session

A session reads its lines in stretches. A stretch is a line that is answered on its own, or lines
that are held back and the line that ends this: by completing a text, or by discarding what is held
back. `Divides` says how lines fall into stretches, with those that are still held back at the end,
and refers to nothing but the lines: whether they are commands where they stand, and how many blocks
they leave open when these are counted line by line. Every list of lines is divided in exactly one
way (`exists_divides`, `Divides.unique`), and the session follows the division
(`Divides.respondAll`).
-/

namespace Kay.Session

open Text (isBlank trim)

/-! ## Stretches -/

/-- Lines that belong together in a session: one that is answered on its own, or those that are held
back and the one that ends this. -/
inductive Stretch where
  /-- A line that is a command, with its answer. -/
  | command (line : String) (reply : Reply)
  /-- A line of white space. -/
  | blank (line : String)
  /-- The lines of a text. -/
  | text (lines : List String)
  /-- Lines that are held back, and the line that discards them. -/
  | discarded (lines : List String) (clear : String)

namespace Stretch

/-- The lines of a stretch. -/
def lines : Stretch → List String
  | command line _ => [line]
  | blank line => [line]
  | text ls => ls
  | discarded ls clear => ls ++ [clear]

/-- The answers to lines that are held back, where so many blocks are open before them. -/
def waiting : Int → List String → List Reply
  | _, [] => []
  | depth, line :: lines =>
    .heldBack (depth + braceDepth line) :: waiting (depth + braceDepth line) lines

/-- The answers to the lines of a stretch. -/
def replies : Stretch → List Reply
  | command _ reply => [reply]
  | blank line => [.dropped (line ++ "\n")]
  | text ls => waiting 0 ls.dropLast ++ [.submitted (joined ls)]
  | discarded ls _ => waiting 0 ls ++ [.cleared]

/-- Whether lines make up a stretch of the given form. -/
def IsSound : Stretch → Prop
  | command line reply =>
    trim line.toList = ":clear".toList ∧ reply = .cleared ∨
      trim line.toList ≠ ":clear".toList ∧ (trim line.toList).head? = some ':' ∧
        reply = Session.command (trim line.toList)
  | blank line => line.toList.all isBlank = true
  | text ls => IsEntered ls ∧ IsComplete ls
  | discarded ls clear => ls ≠ [] ∧ IsHeld ls ∧ trim clear.toList = ":clear".toList

/-- Whether a stretch is the command to end the session. -/
def Ends (s : Stretch) : Prop := ∃ line, s = command line .quit

end Stretch

/-- `Divides lines stretches held`: the lines fall into the stretches, with the lines `held` behind
them that are still held back. What comes behind the end of the session is not looked at. -/
inductive Divides : List String → List Stretch → List String → Prop
  | held {ls : List String} (h : IsHeld ls) : Divides ls [] ls
  | ended {s : Stretch} {ls : List String} (h : s.IsSound) (hends : s.Ends) :
      Divides (s.lines ++ ls) [s] []
  | stretch {s : Stretch} {ss : List Stretch} {ls held : List String} (h : s.IsSound)
      (hends : ¬ s.Ends) (hls : Divides ls ss held) : Divides (s.lines ++ ls) (s :: ss) held

/-! ### Every list of lines is divided -/

/-- Lines that are held back are not all white space. -/
private theorem IsOpen.eq_nil_of_blank {ls : List String} (h : IsOpen ls)
    (hblank : (joined ls).toList.all isBlank = true) : ls = [] := by
  by_contra hne
  have hpos := h ls List.prefix_rfl hne
  rw [← braceDepth_joined, braceDepth_of_blank hblank] at hpos
  exact absurd hpos (by decide)

private theorem exists_divides_append {h : List String} (hheld : IsHeld h) (ls : List String) :
    ∃ ss held, Divides (h ++ ls) ss held := by
  induction ls generalizing h with
  | nil => exact ⟨[], h, by simpa using Divides.held hheld⟩
  | cons l ls ih =>
    -- If the line ends a stretch, a new one starts behind it.
    have hnext : ∀ s : Stretch, s.lines = h ++ [l] → s.IsSound →
        ∃ ss held, Divides (h ++ l :: ls) ss held := fun s hs hsound ↦ by
      rw [List.append_cons, ← hs]
      by_cases hends : s.Ends
      · exact ⟨[s], [], .ended hsound hends⟩
      · obtain ⟨ss, held, hdiv⟩ := ih isHeld_nil
        exact ⟨s :: ss, held, .stretch hsound hends hdiv⟩
    by_cases hclear : trim l.toList = ":clear".toList
    · by_cases hnil : h = []
      · exact hnext (.command l .cleared) (by rw [hnil]; rfl) (.inl ⟨hclear, rfl⟩)
      · exact hnext (.discarded h l) rfl ⟨hnil, hheld, hclear⟩
    by_cases hcolon : h = [] ∧ (trim l.toList).head? = some ':'
    · exact hnext (.command l (command (trim l.toList))) (by rw [hcolon.1]; rfl)
        (.inr ⟨hclear, hcolon.2, rfl⟩)
    have hentered : IsEntered (h ++ [l]) :=
      isEntered_concat.mpr ⟨hheld.entered, hclear, not_and.mp hcolon⟩
    by_cases hpos : 0 < netDepth (h ++ [l])
    · rw [List.append_cons]
      exact ih ⟨hentered, isOpen_concat.mpr ⟨hheld.isOpen, hpos⟩⟩
    by_cases hblank : (joined (h ++ [l])).toList.all isBlank = true
    · rw [joined_append, String.toList_append, List.all_append, Bool.and_eq_true] at hblank
      obtain rfl := hheld.isOpen.eq_nil_of_blank hblank.1
      refine hnext (.blank l) rfl ?_
      have hline := hblank.2
      rw [joined_cons, String.toList_append, String.toList_append, List.all_append, List.all_append,
        Bool.and_eq_true, Bool.and_eq_true] at hline
      exact hline.1.1
    · exact hnext (.text (h ++ [l])) rfl ⟨hentered, isComplete_concat.mpr
        ⟨hheld.isOpen, Int.not_lt.mp hpos, hblank⟩⟩

theorem exists_divides (ls : List String) : ∃ ss held, Divides ls ss held :=
  exists_divides_append isHeld_nil ls

/-! ### The session follows the division -/

private theorem respondAll_of_isHeld {hs ls : List String} (h : IsHeld (hs ++ ls))
    (more : List String) :
    respondAll ⟨joined hs⟩ (ls ++ more)
      = (Stretch.waiting (netDepth hs) ls ++ (respondAll ⟨joined (hs ++ ls)⟩ more).1,
        (respondAll ⟨joined (hs ++ ls)⟩ more).2) := by
  induction ls generalizing hs with
  | nil => simp [Stretch.waiting]
  | cons l ls ih =>
    rw [List.append_cons] at h
    have hline := respond_of_isHeld (h.mono (List.prefix_append _ _))
    have hdepth : netDepth (hs ++ [l]) = netDepth hs + braceDepth l := by simp
    rw [List.cons_append, respondAll_cons hline (by simp), ih h, hdepth, Stretch.waiting,
      List.append_cons hs l ls, List.cons_append]

private theorem respondAll_start_of_isHeld {ls : List String} (h : IsHeld ls) (more : List String) :
    respondAll start (ls ++ more)
      = (Stretch.waiting 0 ls ++ (respondAll ⟨joined ls⟩ more).1,
        (respondAll ⟨joined ls⟩ more).2) :=
  @respondAll_of_isHeld [] ls h more

private theorem respondAll_concat {hs : List String} (h : IsHeld hs) {l : String} {r : Reply}
    (hr : respond ⟨joined hs⟩ l = (r, start)) (hne : r ≠ .quit) (more : List String) :
    respondAll start (hs ++ [l] ++ more)
      = (Stretch.waiting 0 hs ++ [r] ++ (respondAll start more).1, (respondAll start more).2) := by
  rw [← List.append_cons, respondAll_start_of_isHeld h, respondAll_cons hr hne, ← List.append_cons]

private theorem Stretch.respondAll_lines {s : Stretch} (h : s.IsSound) (hends : ¬ s.Ends)
    (more : List String) :
    respondAll start (s.lines ++ more)
      = (s.replies ++ (respondAll start more).1, (respondAll start more).2) := by
  cases s with
  | command l r =>
    have hr : r ≠ .quit := fun hr ↦ hends ⟨l, hr ▸ rfl⟩
    refine respondAll_concat isHeld_nil ?_ hr more
    rcases h with ⟨hclear, rfl⟩ | ⟨hclear, hcolon, rfl⟩
    · exact respond_of_clear hclear _
    · exact respond_of_command hclear hcolon
  | blank l => exact respondAll_concat isHeld_nil (respond_of_blank h) (by simp) more
  | text ls =>
    obtain ⟨hs, l, rfl⟩ := (List.eq_nil_or_concat' ls).resolve_left h.2.ne_nil
    have hheld : IsHeld hs := ⟨(isEntered_concat.mp h.1).1, (isComplete_concat.mp h.2).1⟩
    rw [replies, List.dropLast_concat]
    exact respondAll_concat hheld (respond_of_isComplete h.1 h.2) (by simp) more
  | discarded hs l => exact respondAll_concat h.2.1 (respond_of_clear h.2.2 _) (by simp) more

/-- A session does what the division of its lines says. -/
theorem Divides.respondAll {ls held : List String} {ss : List Stretch} (h : Divides ls ss held) :
    start.respondAll ls
      = (ss.flatMap Stretch.replies ++ Stretch.waiting 0 held, ⟨joined held⟩) := by
  induction h with
  | @held ls h =>
    have hheld := respondAll_start_of_isHeld h []
    rw [List.append_nil] at hheld
    rw [hheld, Session.respondAll, List.append_nil, List.flatMap_nil, List.nil_append]
  | @ended s ls h hends =>
    obtain ⟨l, rfl⟩ := hends
    rcases h with ⟨-, hr⟩ | ⟨hclear, hcolon, hr⟩
    · exact absurd hr (by simp)
    · exact respondAll_quit (hr ▸ respond_of_command hclear hcolon) ls
  | @stretch s ss ls held h hends _ ih =>
    rw [s.respondAll_lines h hends, ih, List.flatMap_cons, List.append_assoc]

/-! ### The division is unique -/

namespace Stretch

/-- A stretch is over with its last line and not before. -/
private theorem IsSound.exists_concat {s : Stretch} (h : s.IsSound) :
    ∃ hs l, s.lines = hs ++ [l] ∧ IsHeld hs ∧ ¬ IsHeld (hs ++ [l]) := by
  cases s with
  | command l r =>
    refine ⟨[], l, rfl, isHeld_nil, fun hheld ↦ ?_⟩
    rcases h with ⟨hclear, -⟩ | ⟨-, hcolon, -⟩
    · exact hheld.entered.ne_clear l (by simp) hclear
    · exact hheld.entered.head_ne_colon l rfl hcolon
  | blank l =>
    refine ⟨[], l, rfl, isHeld_nil, fun hheld ↦ ?_⟩
    have hpos := (isOpen_concat.mp hheld.isOpen).2
    rw [List.nil_append, netDepth_cons, braceDepth_of_blank h] at hpos
    exact absurd hpos (by decide)
  | text ls =>
    obtain ⟨hs, l, rfl⟩ := (List.eq_nil_or_concat' ls).resolve_left h.2.ne_nil
    refine ⟨hs, l, rfl, ⟨(isEntered_concat.mp h.1).1, (isComplete_concat.mp h.2).1⟩, fun hheld ↦ ?_⟩
    exact absurd (isOpen_concat.mp hheld.isOpen).2 (Int.not_lt.mpr h.2.netDepth_le)
  | discarded hs l =>
    exact ⟨hs, l, rfl, h.2.1, fun hheld ↦ hheld.entered.ne_clear l (by simp) h.2.2⟩

private theorem IsSound.not_isHeld {s : Stretch} (h : s.IsSound) : ¬ IsHeld s.lines := by
  obtain ⟨hs, l, hlines, -, hnot⟩ := h.exists_concat
  rwa [hlines]

private theorem IsSound.lines_eq_of_isPrefix {s t : Stretch} (hs : s.IsSound) (ht : t.IsSound)
    (hpre : s.lines <+: t.lines) : s.lines = t.lines := by
  obtain ⟨ls, l, hlines, hheld, -⟩ := ht.exists_concat
  rw [hlines] at hpre ⊢
  refine (prefix_concat_iff.mp hpre).resolve_left fun hpre ↦ ?_
  exact hs.not_isHeld (hheld.mono hpre)

private theorem IsSound.not_isEntered_command {l : String} {r : Reply} (h : (command l r).IsSound) :
    ¬ IsEntered (command l r).lines := by
  intro hentered
  rcases h with ⟨hclear, -⟩ | ⟨-, hcolon, -⟩
  · exact hentered.ne_clear l (List.mem_singleton.mpr rfl) hclear
  · exact hentered.head_ne_colon l rfl hcolon

private theorem IsSound.not_isEntered_discarded {ls : List String} {l : String}
    (h : (discarded ls l).IsSound) : ¬ IsEntered (discarded ls l).lines :=
  fun hentered ↦ hentered.ne_clear l (List.mem_append_right _ (List.mem_singleton.mpr rfl)) h.2.2

private theorem IsSound.not_blank_text {l : String} (h : (text [l]).IsSound) :
    ¬ l.toList.all isBlank = true := by
  intro hblank
  refine h.2.not_blank ?_
  rw [joined_cons, joined_nil, String.toList_append, String.toList_append, List.all_append,
    List.all_append, hblank]
  decide

/-- What a stretch is, is decided by its lines. -/
private theorem IsSound.eq_of_lines_eq {s t : Stretch} (hs : s.IsSound) (ht : t.IsSound)
    (h : s.lines = t.lines) : s = t := by
  -- Commands and discarded lines are told from the others by what is a command where it stands.
  cases s with
  | command l r =>
    cases t with
    | command m r' =>
      obtain rfl := List.singleton_inj.mp h
      rcases hs with ⟨hc, rfl⟩ | ⟨hc, -, rfl⟩ <;> rcases ht with ⟨hc', rfl⟩ | ⟨hc', -, rfl⟩
      · rfl
      · exact absurd hc hc'
      · exact absurd hc' hc
      · rfl
    | blank m => exact absurd (h ▸ isEntered_of_blank ht) hs.not_isEntered_command
    | text ms => exact absurd (h ▸ ht.1) hs.not_isEntered_command
    | discarded ms m => exact absurd (List.append_eq_singleton_iff.mp h.symm) (by simp [ht.1])
  | blank l =>
    cases t with
    | command m r' => exact absurd (h ▸ isEntered_of_blank hs) ht.not_isEntered_command
    | blank m => rw [List.singleton_inj.mp h]
    | text ms =>
      obtain rfl : [l] = ms := h
      exact absurd hs ht.not_blank_text
    | discarded ms m => exact absurd (h ▸ isEntered_of_blank hs) ht.not_isEntered_discarded
  | text ls =>
    cases t with
    | command m r' => exact absurd (h ▸ hs.1) ht.not_isEntered_command
    | blank m =>
      obtain rfl : ls = [m] := h
      exact absurd ht hs.not_blank_text
    | text ms => exact congrArg text h
    | discarded ms m => exact absurd (h ▸ hs.1) ht.not_isEntered_discarded
  | discarded ls l =>
    cases t with
    | command m r' => exact absurd (List.append_eq_singleton_iff.mp h) (by simp [hs.1])
    | blank m => exact absurd (h ▸ isEntered_of_blank ht) hs.not_isEntered_discarded
    | text ms => exact absurd (h ▸ ht.1) hs.not_isEntered_discarded
    | discarded ms m =>
      obtain ⟨rfl, hl⟩ := List.append_inj' h rfl
      rw [List.singleton_inj.mp hl]

private theorem IsSound.eq_of_append_eq {s t : Stretch} (hs : s.IsSound) (ht : t.IsSound)
    {ls ms : List String} (h : s.lines ++ ls = t.lines ++ ms) : s = t ∧ ls = ms := by
  have hlines : s.lines = t.lines := by
    rcases List.prefix_or_prefix_of_prefix (List.prefix_append s.lines ls)
      (h ▸ List.prefix_append t.lines ms) with hpre | hpre
    · exact hs.lines_eq_of_isPrefix ht hpre
    · exact (ht.lines_eq_of_isPrefix hs hpre).symm
  rw [hlines] at h
  exact ⟨hs.eq_of_lines_eq ht hlines, List.append_cancel_left h⟩

end Stretch

theorem Divides.unique {ls held held' : List String} {ss ss' : List Stretch}
    (h : Divides ls ss held) (h' : Divides ls ss' held') : ss = ss' ∧ held = held' := by
  induction h generalizing ss' with
  | @held ls h =>
    cases h' with
    | held h' => exact ⟨rfl, rfl⟩
    | ended hs hends => exact absurd (h.mono (List.prefix_append _ _)) hs.not_isHeld
    | stretch hs hends => exact absurd (h.mono (List.prefix_append _ _)) hs.not_isHeld
  | @ended s ls hs hends =>
    generalize hlines : s.lines ++ ls = lines at h'
    cases h' with
    | held h' =>
      exact absurd (h'.mono (hlines ▸ List.prefix_append _ _)) hs.not_isHeld
    | ended ht hends' =>
      obtain ⟨rfl, -⟩ := hs.eq_of_append_eq ht hlines
      exact ⟨rfl, rfl⟩
    | stretch ht hends' =>
      obtain ⟨rfl, -⟩ := hs.eq_of_append_eq ht hlines
      exact absurd hends hends'
  | @stretch s ss ls held hs hends _ ih =>
    generalize hlines : s.lines ++ ls = lines at h'
    cases h' with
    | held h' =>
      exact absurd (h'.mono (hlines ▸ List.prefix_append _ _)) hs.not_isHeld
    | ended ht hends' =>
      obtain ⟨rfl, -⟩ := hs.eq_of_append_eq ht hlines
      exact absurd hends' hends
    | stretch ht hends' hls =>
      obtain ⟨rfl, rfl⟩ := hs.eq_of_append_eq ht hlines
      obtain ⟨rfl, hheld⟩ := ih hls
      exact ⟨rfl, hheld⟩

/-! ## Lines and texts -/

/-- The lines of a session are those of its stretches and those that are still held back, unless the
session ends before. -/
private theorem Divides.lines_eq {ls held : List String} {ss : List Stretch}
    (h : Divides ls ss held) (hquit : Reply.quit ∉ ss.flatMap Stretch.replies) :
    ls = ss.flatMap Stretch.lines ++ held := by
  induction h with
  | held h => rfl
  | ended h hends =>
    obtain ⟨l, rfl⟩ := hends
    exact absurd (List.mem_singleton.mpr rfl) hquit
  | stretch h hends _ ih =>
    rw [List.flatMap_cons, List.mem_append, not_or] at hquit
    rw [List.flatMap_cons, List.append_assoc, ← ih hquit.2]

private theorem Divides.isHeld {ls held : List String} {ss : List Stretch}
    (h : Divides ls ss held) :
    IsHeld held := by
  induction h with
  | held h => exact h
  | ended => exact isHeld_nil
  | stretch _ _ _ ih => exact ih

theorem Stretch.eq_heldBack_of_mem_waiting {r : Reply} {depth : Int} {ls : List String}
    (h : r ∈ waiting depth ls) : ∃ n, r = .heldBack n := by
  induction ls generalizing depth with
  | nil => exact absurd h (by simp [waiting])
  | cons l ls ih =>
    rcases List.mem_cons.mp h with rfl | h
    · exact ⟨_, rfl⟩
    · exact ih h

private theorem command_ne_submitted (line : List Char) (text : String) :
    command line ≠ .submitted text := by
  unfold command
  dsimp only
  split_ifs <;> simp

/-- Only the last line of a text submits one. -/
private theorem Stretch.IsSound.eq_text {s : Stretch} (h : s.IsSound) {text : String}
    (hmem : Reply.submitted text ∈ s.replies) : ∃ ls, s = .text ls ∧ text = joined ls := by
  have hwaiting : ∀ ls, Reply.submitted text ∉ waiting 0 ls := fun ls hmem ↦ by
    obtain ⟨n, hn⟩ := eq_heldBack_of_mem_waiting hmem
    cases hn
  cases s with
  | command l r =>
    obtain rfl := List.mem_singleton.mp hmem
    rcases h with ⟨-, hr⟩ | ⟨-, -, hr⟩
    · cases hr
    · exact absurd hr.symm (command_ne_submitted _ _)
  | blank l => cases List.mem_singleton.mp hmem
  | text ls =>
    rcases List.mem_append.mp hmem with hmem | hmem
    · exact absurd hmem (hwaiting _)
    · cases List.mem_singleton.mp hmem
      exact ⟨ls, rfl, rfl⟩
  | discarded ls l =>
    rcases List.mem_append.mp hmem with hmem | hmem
    · exact absurd hmem (hwaiting _)
    · cases List.mem_singleton.mp hmem

private theorem Divides.exists_text {ls held : List String} {ss : List Stretch}
    (h : Divides ls ss held) {text : String}
    (hmem : Reply.submitted text ∈ ss.flatMap Stretch.replies) :
    ∃ before run after, ls = before ++ run ++ after ∧ IsComplete run ∧ text = joined run := by
  induction h with
  | held => exact absurd hmem (by simp)
  | @ended s ls h hends =>
    obtain ⟨l, rfl⟩ := hends
    cases List.mem_singleton.mp hmem
  | @stretch s ss ls held h _ _ ih =>
    rw [List.flatMap_cons, List.mem_append] at hmem
    rcases hmem with hmem | hmem
    · obtain ⟨run, rfl, rfl⟩ := h.eq_text hmem
      exact ⟨[], run, ls, rfl, h.2, rfl⟩
    · obtain ⟨before, run, after, rfl, hrun, rfl⟩ := ih hmem
      exact ⟨s.lines ++ before, run, after, by simp, hrun, rfl⟩

end Kay.Session
