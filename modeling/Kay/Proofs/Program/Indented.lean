import Kay.Proofs.Program.Outline
import Kay.Proofs.Token.Lines

/-!
# Texts at a level

A tree is written at a level as it is at the outermost one, with the indentation of the level in
front of every line (`text_indented`). No line is empty, so none is indented to no purpose.

What is written at different levels is compared behind its first line, which is not indented where a
block opens on the line of the statement around it. Such a text hangs (`hanging`): the indentation
goes behind its line feeds, and this commutes with putting texts one behind the other. `Laid` says
that a text written at any level hangs from that level, and `LaidLines` the same for whole lines.
Each way in which the printer puts texts together keeps one of the two, so nothing has to be said
about any form of statement beyond how it is put together.
-/

namespace Kay

open Text

/-! ## Indentation -/

/-- A text with the indentation of a level in front of every line. -/
def indented (level : Nat) (text : String) : String :=
  "\n".intercalate ((sourceLines text).map (indentation level ++ ·))

/-- A text with the indentation of a level in front of every line but the first. -/
def hanging (level : Nat) (text : String) : String :=
  String.ofList (text.toList.flatMap fun c ↦
    if c = '\n' then '\n' :: (indentation level).toList else [c])

private theorem indentation_add (m n : Nat) :
    indentation (m + n) = indentation m ++ indentation n := by
  rw [indentation, indentation, indentation, ← String.ofList_append,
    List.replicate_append_replicate, Nat.mul_add]

private theorem lineFeed_notMem_indentation (level : Nat) : '\n' ∉ (indentation level).toList := by
  rw [indentation, String.toList_ofList]
  exact fun h ↦ absurd (List.eq_of_mem_replicate h) (by decide)

private theorem toList_hanging (level : Nat) (text : String) : (hanging level text).toList =
    text.toList.flatMap fun c ↦ if c = '\n' then '\n' :: (indentation level).toList else [c] :=
  String.toList_ofList

private theorem hanging_append (level : Nat) (a b : String) :
    hanging level (a ++ b) = hanging level a ++ hanging level b := by
  rw [hanging, hanging, hanging, String.toList_append, List.flatMap_append, String.ofList_append]

private theorem hanging_lineFeed (level : Nat) :
    hanging level "\n" = "\n" ++ indentation level := by
  rw [← String.toList_inj, toList_hanging, String.toList_append]
  exact List.append_nil _

private theorem hanging_of_notMem {text : String} (h : '\n' ∉ text.toList) (level : Nat) :
    hanging level text = text := by
  have hall : ∀ c ∈ text.toList,
      (if c = '\n' then '\n' :: (indentation level).toList else [c]) = [c] := by
    intro c hc
    apply if_neg
    rintro rfl
    exact h hc
  rw [hanging, List.flatMap_congr hall, List.flatMap_singleton', String.ofList_toList]

private theorem hanging_indentation (level k : Nat) :
    hanging level (indentation k) = indentation k :=
  hanging_of_notMem (lineFeed_notMem_indentation k) level

private theorem intercalate_cons_append (sep as bs : List Char) (ls : List (List Char)) :
    sep.intercalate ((as ++ bs) :: ls) = as ++ sep.intercalate (bs :: ls) := by
  cases ls <;> simp

private theorem intercalate_map_pieces (blanks cs : List Char) :
    ['\n'].intercalate ((pieces '\n' cs).map (blanks ++ ·)) =
      blanks ++ cs.flatMap fun c ↦ if c = '\n' then '\n' :: blanks else [c] := by
  induction cs with
  | nil => simp [pieces]
  | cons c cs ih =>
    obtain ⟨p, ps, hp⟩ := List.exists_cons_of_ne_nil (pieces_ne_nil '\n' cs)
    rw [hp, List.map_cons] at ih
    by_cases hc : c = '\n'
    · rw [pieces, if_pos hc, hp, List.map_cons, List.map_cons, List.intercalate_cons_cons, ih,
        List.flatMap_cons, if_pos hc]
      simp
    · rw [intercalate_cons_append] at ih
      rw [pieces, if_neg hc, hp, List.flatMap_cons, if_neg hc, List.map_cons,
        intercalate_cons_append, ← List.append_cancel_left ih]
      exact congrArg (blanks ++ ·) (intercalate_cons_append ['\n'] [c] p (ps.map (blanks ++ ·)))

/-- Indenting a text starts its first line, from which the others hang. -/
private theorem indented_eq (level : Nat) (text : String) :
    indented level text = indentation level ++ hanging level text := by
  have hmap : ((sourceLines text).map (indentation level ++ ·)).map String.toList =
      (pieces '\n' text.toList).map ((indentation level).toList ++ ·) := by
    simp [sourceLines]
  rw [← String.toList_inj, indented, String.toList_intercalate, hmap, String.toList_append,
    toList_hanging]
  exact intercalate_map_pieces _ _

/-! ## Empty lines -/

/-- Whether no line of a text is empty. -/
def Filled (text : String) : Prop := [] ∉ pieces '\n' text.toList

/-- Whether no line of a text behind the first one is empty. -/
def FilledBehind (text : String) : Prop := [] ∉ (pieces '\n' text.toList).tail

private theorem filled_iff {text : String} : Filled text ↔ "" ∉ sourceLines text := by
  rw [Filled, sourceLines]
  simp

private theorem Filled.behind {text : String} (h : Filled text) : FilledBehind text :=
  fun hmem ↦ h (List.mem_of_mem_tail hmem)

private theorem nil_notMem_pieces_cons {c : Char} {cs : List Char} :
    [] ∉ pieces '\n' (c :: cs) ↔ c ≠ '\n' ∧ [] ∉ (pieces '\n' cs).tail := by
  obtain ⟨p, ps, hp⟩ := List.exists_cons_of_ne_nil (pieces_ne_nil '\n' cs)
  by_cases hc : c = '\n' <;> simp [pieces, hc, hp]

private theorem nil_notMem_tail_pieces_cons {c : Char} {cs : List Char} :
    [] ∉ (pieces '\n' (c :: cs)).tail ↔
      if c = '\n' then [] ∉ pieces '\n' cs else [] ∉ (pieces '\n' cs).tail := by
  obtain ⟨p, ps, hp⟩ := List.exists_cons_of_ne_nil (pieces_ne_nil '\n' cs)
  by_cases hc : c = '\n' <;> simp [pieces, hc, hp]

private theorem nil_notMem_pieces_append {as bs : List Char}
    (hb : [] ∉ (pieces '\n' bs).tail) :
    ([] ∉ pieces '\n' as → [] ∉ pieces '\n' (as ++ bs)) ∧
      ([] ∉ (pieces '\n' as).tail → [] ∉ (pieces '\n' (as ++ bs)).tail) := by
  induction as with
  | nil => exact ⟨fun h ↦ absurd List.mem_cons_self h, fun _ ↦ hb⟩
  | cons c as ih =>
    rw [List.cons_append, nil_notMem_pieces_cons, nil_notMem_pieces_cons,
      nil_notMem_tail_pieces_cons, nil_notMem_tail_pieces_cons]
    refine ⟨fun h ↦ ⟨h.1, ih.2 h.2⟩, fun h ↦ ?_⟩
    by_cases hc : c = '\n'
    · rw [if_pos hc] at h ⊢
      exact ih.1 h
    · rw [if_neg hc] at h ⊢
      exact ih.2 h

/-- The last line of the first text goes on with the first line of the second one. -/
theorem Filled.append {a b : String} (ha : Filled a) (hb : FilledBehind b) : Filled (a ++ b) := by
  rw [Filled, String.toList_append]
  exact (nil_notMem_pieces_append hb).1 ha

theorem Filled.lineFeed {text : String} (h : Filled text) : FilledBehind ("\n" ++ text) := by
  rw [FilledBehind, String.toList_append]
  exact nil_notMem_tail_pieces_cons.mpr h

private theorem pieces_of_notMem {cut : Char} {cs : List Char} (h : cut ∉ cs) :
    pieces cut cs = [cs] := by
  induction cs with
  | nil => rfl
  | cons c cs ih =>
    rw [List.mem_cons, not_or] at h
    rw [pieces, if_neg (Ne.symm h.1), ih h.2]

private theorem filled_of_notMem {text : String} (hne : text ≠ "") (h : '\n' ∉ text.toList) :
    Filled text := by
  rw [Filled, pieces_of_notMem h, List.mem_singleton]
  exact fun hnil ↦ hne (String.toList_eq_nil_iff.mp hnil.symm)

/-- Blanks in front of a text do no harm. -/
theorem Filled.indentation {text : String} (h : Filled text) (level : Nat) :
    Filled (indentation level ++ text) := by
  by_cases hnil : Text.indentation level = ""
  · rwa [hnil, String.empty_append]
  · exact (filled_of_notMem hnil (lineFeed_notMem_indentation level)).append h.behind

/-! ## Texts that hang from their level -/

/-- Whether what is written at a level hangs from there, and leaves no line empty. -/
structure Laid (written : Nat → String) : Prop where
  hanging_eq : ∀ level k, hanging level (written k) = written (level + k)
  filled : ∀ k, Filled (written k)

/-- Whether whole lines that are written at a level are indented by it, and none of them is
empty. -/
structure LaidLines (written : Nat → String) : Prop where
  hanging_eq : ∀ level k,
    indentation level ++ hanging level (written k) = written (level + k) ++ indentation level
  filled : ∀ k {text}, Filled text → Filled (written k ++ text)

section

variable {f g h : Nat → String}

/-- What stays on one line is the same at every level. -/
private theorem laid_of_notMem {text : String} (hne : text ≠ "") (hfeed : '\n' ∉ text.toList) :
    Laid fun _ ↦ text where
  hanging_eq level _ := hanging_of_notMem hfeed level
  filled _ := filled_of_notMem hne hfeed

theorem Laid.append (hf : Laid f) (hg : Laid g) : Laid fun k ↦ f k ++ g k where
  hanging_eq level k := by rw [hanging_append, hf.hanging_eq, hg.hanging_eq]
  filled k := (hf.filled k).append (hg.filled k).behind

/-- A text below another one, deeper by some levels. -/
private theorem Laid.below (hf : Laid f) (hg : Laid g) (d : Nat) :
    Laid fun k ↦ f k ++ ("\n" ++ (indentation (k + d) ++ g (k + d))) where
  hanging_eq level k := by
    rw [hanging_append, hanging_append, hanging_append, hf.hanging_eq, hg.hanging_eq,
      hanging_lineFeed, hanging_indentation, String.append_assoc, Nat.add_assoc,
      indentation_add level, String.append_assoc]
  filled k := (hf.filled k).append ((hg.filled _).indentation _).lineFeed

private theorem laidLines_nil : LaidLines fun _ ↦ "" where
  hanging_eq level _ := by
    rw [hanging_of_notMem List.not_mem_nil, String.append_empty, String.empty_append]
  filled _ {text} htext := by rwa [String.empty_append]

private theorem LaidLines.hanging_append_eq (hf : LaidLines f) (level k : Nat) (text : String) :
    indentation level ++ (hanging level (f k) ++ text) =
      f (level + k) ++ (indentation level ++ text) := by
  rw [← String.append_assoc, hf.hanging_eq, String.append_assoc]

theorem Laid.cons (hf : Laid f) (hg : LaidLines g) :
    LaidLines fun k ↦ indentation k ++ f k ++ "\n" ++ g k where
  hanging_eq level k := by
    rw [hanging_append, hanging_append, hanging_append, hf.hanging_eq, hanging_lineFeed,
      hanging_indentation, indentation_add]
    simp only [String.append_assoc]
    rw [hg.hanging_eq]
  filled k {text} htext := by
    simp only [String.append_assoc]
    exact ((hf.filled k).append (hg.filled k htext).lineFeed).indentation k

/-- Lines between a text that opens and one that closes. -/
private theorem Laid.around (hf : Laid f) (hg : LaidLines g) (hh : Laid h) :
    Laid fun k ↦ f k ++ "\n" ++ g (k + 1) ++ indentation k ++ h k where
  hanging_eq level k := by
    rw [hanging_append, hanging_append, hanging_append, hanging_append, hf.hanging_eq,
      hh.hanging_eq, hanging_lineFeed, hanging_indentation, indentation_add]
    simp only [String.append_assoc]
    rw [hg.hanging_append_eq, Nat.add_assoc]
  filled k := by
    simp only [String.append_assoc]
    exact (hf.filled k).append (hg.filled _ ((hh.filled k).indentation k)).lineFeed

private theorem LaidLines.of_eq (hf : LaidLines f) (heq : ∀ k, f k = g k) : LaidLines g :=
  funext heq ▸ hf

private theorem Laid.of_eq (hf : Laid f) (heq : ∀ k, f k = g k) : Laid g := funext heq ▸ hf

end

/-! ## Expressions -/

namespace Expression

private theorem lineFeed_notMem_grouped {text : String} (h : '\n' ∉ text.toList)
    (parentheses : Bool) :
    '\n' ∉ (grouped parentheses text).toList := by
  cases parentheses
  · exact h
  · simpa [grouped] using h

/-- An expression is written on one line. -/
private theorem lineFeed_notMem_text {e : Expression} (h : e.Over .singleLine) :
    '\n' ∉ e.text.toList := by
  induction e with
  | «variable» v => exact h
  | value v => exact v.lineFeed_notMem_text
  | unary op operand ih =>
    rw [text, String.toList_append]
    exact List.not_mem_append h.1 (lineFeed_notMem_grouped (ih h.2) _)
  | binary op left right ihl ihr =>
    have hop : '\n' ∉ op.lexeme.toList := h.1
    have hleft := lineFeed_notMem_grouped (ihl h.2.1) left.isBinary
    have hright := lineFeed_notMem_grouped (ihr h.2.2) right.isBinary
    simpa [text] using ⟨hleft, hop, hright⟩

end Expression

/-! ## Statements -/

namespace Statement

variable {head written : Nat → String}

/-- A branch goes on behind its statement, or stands below it. -/
private theorem laid_asBranch (hhead : Laid head) (s : Statement) (hs : Laid written) :
    Laid fun k ↦ head k ++ s.asBranch k written := by
  by_cases hblock : s.isBlock = true
  · have hblank : Laid fun _ ↦ " " := laid_of_notMem (by decide) (by decide)
    refine (hhead.append (hblank.append hs)).of_eq fun k ↦ ?_
    rw [asBranch, if_pos hblock]
  · refine (hhead.below hs 1).of_eq fun k ↦ ?_
    rw [asBranch, if_neg hblock, String.append_assoc]

private theorem laid_beforeElse (hhead : Laid head) (s : Statement) (hs : Laid written) :
    Laid fun k ↦ head k ++ s.beforeElse k written := by
  by_cases hopen : s.endsWithOpenIf = true
  · have hbrace : Laid fun _ ↦ " \x7b" := laid_of_notMem (by decide) (by decide)
    have helse : Laid fun _ ↦ "\x7d else" := laid_of_notMem (by decide) (by decide)
    refine (((hhead.append hbrace).below hs 1).below helse 0).of_eq fun k ↦ ?_
    have hfeed : " \x7b\n" = " \x7b" ++ "\n" := rfl
    simp only [beforeElse, if_pos hopen, hfeed, String.append_assoc, Nat.add_zero]
  · by_cases hblock : s.isBlock = true
    · have helse : Laid fun _ ↦ " else" := laid_of_notMem (by decide) (by decide)
      refine ((laid_asBranch hhead s hs).append helse).of_eq fun k ↦ ?_
      simp only [beforeElse, if_neg hopen, if_pos hblock, String.append_assoc]
    · have helse : Laid fun _ ↦ "else" := laid_of_notMem (by decide) (by decide)
      refine ((laid_asBranch hhead s hs).below helse 0).of_eq fun k ↦ ?_
      simp only [beforeElse, if_neg hopen, if_neg hblock, String.append_assoc, Nat.add_zero]

/-- The keyword of a composite statement, with the test behind it. -/
private theorem laid_guard {opening : String} (hopening : '\n' ∉ opening.toList) {test : Expression}
    (htest : test.Over .singleLine) : Laid fun _ ↦ opening ++ test.text ++ ")" := by
  apply laid_of_notMem
  · exact fun h ↦ absurd (congrArg String.toList h) (by simp)
  · simpa using ⟨hopening, test.lineFeed_notMem_text htest⟩

private theorem laid_assignment {target : Variable} {source : Expression}
    (htarget : '\n' ∉ target.name.toList) (hsource : source.Over .singleLine) :
    Laid (assignment target source).unindented := by
  have hline : Laid fun _ ↦ target.name ++ " := " ++ source.text ++ ";" := by
    apply laid_of_notMem
    · exact fun h ↦ absurd (congrArg String.toList h) (by simp)
    · simpa using ⟨htarget, source.lineFeed_notMem_text hsource⟩
  exact hline

private theorem laid_block {m : Statement} {ms : List Statement}
    (h : LaidLines (linesOf (m :: ms))) :
    Laid (block (m :: ms)).unindented := by
  have hopen : Laid fun _ ↦ "\x7b" := laid_of_notMem (by decide) (by decide)
  have hclose : Laid fun _ ↦ "\x7d" := laid_of_notMem (by decide) (by decide)
  refine (hopen.around h hclose).of_eq fun k ↦ ?_
  have hfeed : "\x7b\n" = "\x7b" ++ "\n" := rfl
  simp only [unindented, linesOf, hfeed, String.append_assoc]

mutual

/-- A statement is written alike at all levels. -/
private theorem laid_unindented : ∀ {s : Statement}, s.Over .singleLine → Laid s.unindented
  | skip, _ => laid_of_notMem (by decide) (by decide)
  | assignment _ _, ⟨htarget, hsource⟩ => laid_assignment htarget hsource
  | conditional _ thenBranch none, ⟨htest, ht⟩ =>
    laid_asBranch (laid_guard (by decide) htest) thenBranch (laid_unindented ht)
  | conditional _ thenBranch (some elseBranch), ⟨htest, ht, he⟩ =>
    laid_asBranch
      (laid_beforeElse (laid_guard (by decide) htest) thenBranch (laid_unindented ht))
      elseBranch (laid_unindented he)
  | loop _ body, ⟨htest, hbody⟩ =>
    laid_asBranch (laid_guard (by decide) htest) body (laid_unindented hbody)
  | block [], _ => laid_of_notMem (by decide) (by decide)
  | block (_ :: _), h => laid_block (laidLines_linesOf h)

private theorem laidLines_linesOf : ∀ {ms : List Statement}, MembersOver .singleLine ms →
    LaidLines (linesOf ms)
  | [], _ => laidLines_nil
  | _ :: _, ⟨hm, hms⟩ => (laid_unindented hm).cons (laidLines_linesOf hms)

end

end Statement

/-! ## Declarations -/

namespace Declaration

/-- What is written for a declaration behind the indentation of its line. -/
def entry (d : Declaration) : String := d.ty.keyword ++ " " ++ d.declared.name ++ ";"

private theorem text_eq (d : Declaration) (level : Nat) :
    d.text level = indentation level ++ d.entry := by
  simp only [text, entry, String.append_assoc]

private theorem laid_entry {d : Declaration} (h : '\n' ∉ d.declared.name.toList) :
    Laid fun _ ↦ d.entry := by
  have hkeyword : '\n' ∉ d.ty.keyword.toList := by cases d.ty <;> decide
  apply laid_of_notMem
  · exact fun h ↦ absurd (congrArg String.toList h) (by simp [entry])
  · simpa [entry] using ⟨hkeyword, h⟩

end Declaration

/-- What is written for a program between its braces. -/
def Program.linesBetween (p : Program) (level : Nat) : String :=
  String.join (p.declarations.map fun d ↦ d.text level ++ "\n") ++
    Statement.linesOf p.body.members level

private theorem Program.laidLines_linesBetween {p : Program} (h : p.Over .singleLine) :
    LaidLines p.linesBetween := by
  obtain ⟨ds, ⟨ms⟩⟩ := p
  obtain ⟨hds, hms⟩ := h
  induction ds with
  | nil =>
    have hlines : LaidLines (Statement.linesOf ms) := Statement.laidLines_linesOf hms
    refine hlines.of_eq fun k ↦ ?_
    rw [linesBetween, List.map_nil, String.join_nil, String.empty_append]
  | cons d ds ih =>
    obtain ⟨hd, hds⟩ := List.forall_mem_cons.mp hds
    refine ((Declaration.laid_entry hd).cons (ih hds hms)).of_eq fun k ↦ ?_
    simp only [linesBetween, List.map_cons, String.join_cons, Declaration.text_eq,
      String.append_assoc]

/-! ## Texts of trees -/

/-- Whether a text is written at every level as at the outermost one, with the indentation of the
level in front of its lines, and none of its lines is empty. -/
def ShiftsLines (written : Nat → String) : Prop :=
  "" ∉ sourceLines (written 0) ∧ ∀ level, written level = indented level (written 0)

private theorem Laid.shiftsLines {f written : Nat → String} (hf : Laid f)
    (h : ∀ level, written level = indentation level ++ f level) : ShiftsLines written := by
  have hzero : written 0 = f 0 := (h 0).trans String.empty_append
  refine ⟨?_, fun level ↦ ?_⟩
  · rw [hzero]
    exact filled_iff.mp (hf.filled 0)
  · rw [h level, hzero, indented_eq, hf.hanging_eq, Nat.add_zero]

/-- **Printing at a level is printing at the outermost one, shifted.** Whatever tree has no line
feed in its names and operators, its text at a level is that at level zero with the indentation of
the level in front of every line, and no line is empty. The text of a program is such a text with
the end of its last line behind. -/
theorem text_indented :
    (∀ s : Statement, s.Over .singleLine → ShiftsLines s.text) ∧
    (∀ b : Block, b.toStatement.Over .singleLine → ShiftsLines b.toStatement.text) ∧
    (∀ a : Assignment, a.toStatement.Over .singleLine → ShiftsLines a.toStatement.text) ∧
    (∀ c : Conditional, c.toStatement.Over .singleLine → ShiftsLines c.toStatement.text) ∧
    (∀ l : Loop, l.toStatement.Over .singleLine → ShiftsLines l.toStatement.text) ∧
    (∀ d : Declaration, '\n' ∉ d.declared.name.toList → ShiftsLines d.text) ∧
    ∀ p : Program, p.Over .singleLine →
      ∃ written, (∀ level, p.text level = written level ++ "\n") ∧ ShiftsLines written := by
  have hstatement : ∀ s : Statement, s.Over .singleLine → ShiftsLines s.text := fun s hs ↦
    (Statement.laid_unindented hs).shiftsLines fun _ ↦ rfl
  refine ⟨hstatement, fun b ↦ hstatement _, fun a ↦ hstatement _, fun c ↦ hstatement _,
    fun l ↦ hstatement _, fun d hd ↦ ?_, fun p hp ↦ ?_⟩
  · exact (Declaration.laid_entry hd).shiftsLines d.text_eq
  · have hopen : Laid fun _ ↦ "main \x7b" := laid_of_notMem (by decide) (by decide)
    have hclose : Laid fun _ ↦ "\x7d" := laid_of_notMem (by decide) (by decide)
    refine ⟨_, fun level ↦ ?_,
      (hopen.around (Program.laidLines_linesBetween hp) hclose).shiftsLines fun _ ↦ rfl⟩
    have hfirst : "main \x7b\n" = "main \x7b" ++ "\n" := rfl
    have hlast : "\x7d\n" = "\x7d" ++ "\n" := rfl
    simp only [Program.text, Program.linesBetween, hfirst, hlast, String.append_assoc]

/-- A branch with braces that the tree does not have, and a branch below its `else`. -/
theorem text_indented_addedBraces :
    (Statement.conditional (.variable ⟨"a"⟩) (.conditional (.variable ⟨"b"⟩) .skip none)
        (some .skip)).Over .singleLine ∧
      (Statement.conditional (.variable ⟨"a"⟩) (.conditional (.variable ⟨"b"⟩) .skip none)
        (some .skip)).text 2 = indented 2 "if (a) \x7b\n  if (b)\n    ;\n\x7d else\n  ;" := by
  have hover : (Statement.conditional (.variable ⟨"a"⟩)
      (.conditional (.variable ⟨"b"⟩) .skip none) (some .skip)).Over .singleLine := by
    have ha : '\n' ∉ "a".toList := by decide
    have hb : '\n' ∉ "b".toList := by decide
    exact ⟨ha, ⟨hb, trivial⟩, trivial⟩
  exact ⟨hover, (text_indented.1 _ hover).2 2⟩

end Kay
