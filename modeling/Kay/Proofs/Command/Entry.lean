import Kay.Proofs.Command.Accumulation
import Kay.Proofs.Command.Output
import Kay.Proofs.Grammar.Blocks
import Kay.Proofs.Grammar.Program
import Kay.Proofs.Token.Lines
import Mathlib.Data.List.DropRight

/-!
# Programs entered line by line

A program that is entered line by line is read as it would be from a file, if nothing else is
entered with it (`respondAll_program`). The lines from the first brace to the last are then one
text: behind each of them but the last a block is open, and none of them is a command, because no
program has a token that starts with a colon other than the assignment sign, which does not start
a program.

Braces are tokens and not characters, so it is the terminals of the lines that count. Which of them
stand in which line is settled in terms of offsets in `Kay.Proofs.Token.Lines`, and that a block is
open between the first brace and the last in terms of derivations in `Kay.Proofs.Grammar.Blocks`.
-/

namespace Kay

open Text Lexeme Grammar

/-! ## Lines that start with a colon -/

private theorem terminals_dropWhile (cs : List Char) :
    terminals (cs.dropWhile isBlank) = terminals cs := by
  induction cs with
  | nil => rfl
  | cons c cs ih =>
    by_cases hc : isBlank c = true
    · rw [List.dropWhile_cons_of_pos hc, ih, terminals_blank hc]
    · rw [List.dropWhile_cons_of_neg hc]

private theorem trim_isPrefix (cs : List Char) : trim cs <+: cs.dropWhile isBlank :=
  List.rdropWhile_prefix isBlank _

private theorem head?_longest (c : Char) (cs : List Char) : (longest c cs).2.1.head? = some c := by
  unfold longest
  split
  · rfl
  · split
    · rfl
    · split
      · split <;> rfl
      · rfl

/-- The first terminal of a text that starts with a colon. -/
private theorem terminals_colon (cs : List Char) :
    terminals (':' :: cs) = ⟨(longest ':' cs).1, String.ofList (longest ':' cs).2.1⟩ ::
      terminals (longest ':' cs).2.2 := by
  have hfirst : first? ([] ++ ':' :: cs) = _ := first?_of_gap .nil (by decide) (by simp)
  rw [List.nil_append] at hfirst
  rw [terminals, lexemes_of_some hfirst, List.map_cons]
  rfl

private theorem exists_terminals_of_colon {cs ds : List Char} (h : trim cs = ':' :: ds) :
    ∃ es, terminals cs =
      ⟨(longest ':' (ds ++ es)).1, String.ofList (longest ':' (ds ++ es)).2.1⟩ ::
        terminals (longest ':' (ds ++ es)).2.2 := by
  obtain ⟨es, hes⟩ := trim_isPrefix cs
  exact ⟨es, by rw [← terminals_dropWhile, ← hes, h, List.cons_append, terminals_colon]⟩

/-- The first terminal of a line that starts with a colon starts with it. -/
private theorem exists_terminal_of_colon {cs : List Char} (h : (trim cs).head? = some ':') :
    ∃ t ts, terminals cs = t :: ts ∧ t.text.toList.head? = some ':' := by
  obtain ⟨ds, hds⟩ := List.head?_eq_some_iff.mp h
  obtain ⟨es, hterminals⟩ := exists_terminals_of_colon hds
  exact ⟨_, _, hterminals, by rw [String.toList_ofList, head?_longest]⟩

/-- The line that discards what is held back holds a character that no program has. -/
private theorem exists_other_of_clear {cs : List Char} (h : trim cs = ":clear".toList) :
    ∃ t ∈ terminals cs, t.kind = .other := by
  obtain ⟨es, hterminals⟩ := exists_terminals_of_colon (show trim cs = ':' :: "clear".toList from h)
  rw [hterminals]
  refine ⟨_, List.mem_cons_self, ?_⟩
  have hletter : isLetter ':' = false := by decide +kernel
  have hdigit : isAsciiDigit ':' = false := by decide
  have hpair : isPair ':' 'c' = false := by decide
  have hkind : signKind ':' = .other := by decide
  rw [show "clear".toList ++ es = 'c' :: ("lear".toList ++ es) from rfl, longest,
    if_neg (ne_true_of_eq_false hletter), if_neg (ne_true_of_eq_false hdigit)]
  dsimp only
  rw [if_neg (ne_true_of_eq_false hpair)]
  exact hkind

/-! ## The lines of a program -/

@[simp] theorem terminalsOf_append (ls ms : List String) :
    terminalsOf (ls ++ ms) = terminalsOf ls ++ terminalsOf ms := List.flatMap_append

private theorem terminalsOf_of_blank {ls : List String}
    (h : ∀ l ∈ ls, l.toList.all isBlank = true) :
    terminalsOf ls = [] :=
  List.flatMap_eq_nil_iff.mpr fun l hl ↦ terminals_of_blank (h l hl)

namespace Session

private theorem terminals_joined (ls : List String) :
    terminals (joined ls).toList = terminalsOf ls := by
  induction ls with
  | nil => exact terminals_nil
  | cons l ls ih =>
    have hlist : (joined (l :: ls)).toList = l.toList ++ '\n' :: (joined ls).toList := by simp
    rw [hlist, terminals_lineFeed, ih]
    rfl

private theorem netDepth_eq (ls : List String) : netDepth ls = openBlocks (terminalsOf ls) := by
  rw [← braceDepth_joined, braceDepth_eq, terminals_joined]

/-- A run of lines that hold a program, its first brace in the first of them and its last brace in
the last, is a text with no command in it. -/
private theorem isComplete_of_program {run : List String} {body : List Terminal}
    (hbody : Nested body) (hrun : terminalsOf run = programTerminals body)
    (hfirst : 2 ≤ (terminalsOf (run.take 1)).length)
    (hlast : (terminalsOf run.dropLast).length < (programTerminals body).length) :
    IsEntered run ∧ IsComplete run := by
  have hne : run ≠ [] := by
    rintro rfl
    simp [terminalsOf] at hrun
  have hmono : ∀ {ps qs : List String}, ps <+: qs → terminalsOf ps <+: terminalsOf qs := by
    rintro ps _ ⟨rs, rfl⟩
    rw [terminalsOf_append]
    exact List.prefix_append _ _
  refine ⟨⟨fun l hl hclear ↦ ?_, fun l hl hcolon ↦ ?_⟩, hne, ?_, fun p hp hp' hne' ↦ ?_, ?_⟩
  · obtain ⟨t, ht, hother⟩ := exists_other_of_clear hclear
    have hmem : t ∈ terminalsOf run := List.mem_flatMap.mpr ⟨l, hl, ht⟩
    rw [hrun] at hmem
    exact (nested_programTerminals hbody).kind_ne_other t hmem hother
  · obtain ⟨t, ts, hterminals, htext⟩ := exists_terminal_of_colon hcolon
    obtain ⟨ls, rfl⟩ := List.head?_eq_some_iff.mp (Option.mem_def.mp hl)
    have hmain : terminals l.toList ++ terminalsOf ls = programTerminals body := hrun
    rw [hterminals] at hmain
    obtain ⟨rfl, -⟩ := List.cons.inj hmain
    exact absurd htext (by decide)
  · rw [netDepth_eq, hrun, (nested_programTerminals hbody).openBlocks_eq_zero]
  · rw [netDepth_eq]
    refine openBlocks_pos_of_isPrefix hbody (hrun ▸ hmono hp) ?_ ?_
    · have htake : run.take 1 <+: p := by
        obtain ⟨l, ls, rfl⟩ := List.exists_cons_of_ne_nil hp'
        obtain ⟨ms, rfl⟩ := hp
        exact ⟨ls, rfl⟩
      exact hfirst.trans (hmono htake).length_le
    · have hdrop : p <+: run.dropLast := by
        rw [← List.dropLast_concat_getLast hne] at hp hne'
        exact (prefix_concat_iff.mp hp).resolve_right hne'
      exact (hmono hdrop).length_le.trans_lt hlast
  · intro hblank
    have hnil := terminals_of_blank hblank
    rw [terminals_joined, hrun] at hnil
    cases hnil

end Session

/-! ## Where a program stands in its source -/

/-- The first token of a source that opens a block. -/
def opening? (source : String) : Option Token :=
  (Token.scan source).find? (·.isSeparator "\x7b")

/-- The last token of a source that closes a block. -/
def closing? (source : String) : Option Token :=
  (Token.scan source).reverse.find? (·.isSeparator "\x7d")

/-- Whether there is nothing but blank lines before the line of the first brace that opens a block,
and behind the line of the last that closes one. -/
structure StandsAlone (source : String) : Prop where
  before : ∀ t ∈ opening? source,
    ∀ l ∈ (sourceLines source).take (lineOf source t.span.start), l.toList.all isBlank = true
  behind : ∀ t ∈ closing? source,
    ∀ l ∈ (sourceLines source).drop (lineOf source t.span.start + 1), l.toList.all isBlank = true

section

variable {source : String} {body : List Terminal}

private theorem isSeparator_of_terminal {t : Token} {text : String}
    (h : t.terminal = .separator text) :
    t.isSeparator text = true := by
  obtain ⟨kind, text', span⟩ := t
  cases h
  simp [Token.isSeparator, Token.is]

/-- The first brace of a program is its second token. -/
private theorem exists_opening (h : terminals source.toList = programTerminals body) :
    ∃ t, opening? source = some t ∧ (Token.place 0 (lexemes source.toList))[1]? = some t := by
  rw [terminals, ← map_terminal_place 0, programTerminals] at h
  rw [opening?, Token.scan]
  obtain ⟨main, ts, hts, hmain, h⟩ := List.map_eq_cons_iff.mp h
  obtain ⟨t, us, rfl, ht, -⟩ := List.map_eq_cons_iff.mp h
  have hnot : main.isSeparator "\x7b" = false := by
    have hkind : main.kind = .keyword := congrArg Terminal.kind hmain
    simp [Token.isSeparator, Token.is, hkind]
  rw [hts]
  refine ⟨t, ?_, rfl⟩
  rw [List.cons_append, List.find?_cons, hnot, List.cons_append, List.find?_cons,
    isSeparator_of_terminal ht]

/-- The last brace of a program is its last token. -/
private theorem exists_closing (h : terminals source.toList = programTerminals body) :
    ∃ t, closing? source = some t ∧
      (Token.place 0 (lexemes source.toList))[body.length + 2]? = some t := by
  rw [terminals, ← map_terminal_place 0, programTerminals, ← List.cons_append, ← List.cons_append]
    at h
  rw [closing?, Token.scan]
  obtain ⟨ts, us, hts, hbody, hus⟩ := List.map_eq_append_iff.mp h
  obtain ⟨t, rfl, ht⟩ := List.map_eq_singleton_iff.mp hus
  have hlen : ts.length = body.length + 2 := by rw [← List.length_map Token.terminal, hbody]; rfl
  rw [hts]
  refine ⟨t, ?_, ?_⟩
  · rw [List.reverse_append, List.reverse_append, List.reverse_singleton, List.reverse_singleton,
      List.singleton_append, List.singleton_append, List.find?_cons, List.find?_cons,
      isSeparator_of_terminal ht]
    rfl
  · rw [← hlen, List.getElem?_concat_length]

/-- The lines of a program that stands alone: those from its first brace to its last are a text, and
all others are blank. -/
private theorem exists_run (hbody : Nested body)
    (hsource : terminals source.toList = programTerminals body)
    (halone : StandsAlone source) : ∃ before run after,
      sourceLines source = before ++ run ++ after ∧
        (∀ l ∈ before, l.toList.all isBlank = true) ∧ (∀ l ∈ after, l.toList.all isBlank = true) ∧
        Session.IsEntered run ∧ Session.IsComplete run ∧
        terminalsOf run = programTerminals body := by
  obtain ⟨t, ht, hfirst⟩ := exists_opening hsource
  obtain ⟨u, hu, hlast⟩ := exists_closing hsource
  have hbefore := halone.before t ht
  have hafter := halone.behind u hu
  have hfirst := lt_length_terminals_iff hfirst
  have hlast := lt_length_terminals_iff hlast
  have hlength := lineOf_lt_length source u.span.start
  generalize lineOf source t.span.start = m at *
  generalize lineOf source u.span.start = n at *
  generalize hlines : sourceLines source = ls at *
  have hmn : m ≤ n := by
    have hn := (hlast (n + 1)).mpr (Nat.lt_succ_self n)
    exact Nat.le_of_lt_succ ((hfirst (n + 1)).mp (by omega))
  -- The first lines of the run hold what all lines up to there hold.
  have htake : ∀ k, m + k ≤ n + 1 →
      terminalsOf (((ls.take (n + 1)).drop m).take k) = terminalsOf (ls.take (m + k)) := by
    intro k hk
    rw [← Nat.min_eq_left hk, ← List.take_take, List.take_add (i := m), terminalsOf_append,
      List.take_take, Nat.min_eq_left (by omega), terminalsOf_of_blank hbefore, List.nil_append]
  have hsplit : ls = ls.take m ++ (ls.take (n + 1)).drop m ++ ls.drop (n + 1) := by
    have hm := List.take_append_drop m (ls.take (n + 1))
    rw [List.take_take, Nat.min_eq_left (by omega)] at hm
    rw [hm, List.take_append_drop]
  have hrun : terminalsOf ((ls.take (n + 1)).drop m) = programTerminals body := by
    have hall := terminals_sourceLines source
    rw [hlines, hsource, hsplit, terminalsOf_append, terminalsOf_append,
      terminalsOf_of_blank hbefore, terminalsOf_of_blank hafter, List.nil_append,
      List.append_nil] at hall
    exact hall
  refine ⟨_, _, _, hsplit, hbefore, hafter, and_assoc.mp ⟨?_, hrun⟩⟩
  refine Session.isComplete_of_program hbody hrun ?_ ?_
  · rw [htake 1 (by omega)]
    exact (hfirst (m + 1)).mpr (Nat.lt_succ_self m)
  · have hlen : ((ls.take (n + 1)).drop m).length - 1 = n - m := by
      rw [List.length_drop, List.length_take]
      omega
    rw [List.dropLast_eq_take, hlen, htake _ (by omega), Nat.add_sub_cancel' hmn]
    have hnot := mt (hlast n).mp (Nat.lt_irrefl n)
    simp only [programTerminals, List.length_cons, List.length_append, List.length_nil]
    omega

end

/-! ## A program in a session -/

/-- Whether nothing is put out for a reply. -/
def Reply.IsQuiet (r : Reply) : Prop := (∃ n, r = .heldBack n) ∨ ∃ text, r = .dropped text

namespace Reply.IsQuiet

variable {r : Reply}

private theorem stdout_eq (h : r.IsQuiet) : r.stdout = "" := by
  rcases h with ⟨n, rfl⟩ | ⟨text, rfl⟩ <;> rfl

private theorem notices_eq (h : r.IsQuiet) : r.notices = [] := by
  rcases h with ⟨n, rfl⟩ | ⟨text, rfl⟩ <;> rfl

private theorem not_loads (h : r.IsQuiet) : ¬ r.Loads := by
  rcases h with ⟨n, rfl⟩ | ⟨text, rfl⟩ <;> rintro ⟨path, hpath⟩ <;> cases hpath

private theorem join_stdout {rs : List Reply} (h : ∀ r ∈ rs, r.IsQuiet) :
    String.join (rs.map stdout) = "" := by
  induction rs with
  | nil => rfl
  | cons r rs ih =>
    obtain ⟨hr, hrs⟩ := List.forall_mem_cons.mp h
    rw [List.map_cons, String.join_cons, hr.stdout_eq, ih hrs, String.append_empty]

private theorem flatMap_notices {rs : List Reply} (h : ∀ r ∈ rs, r.IsQuiet) :
    rs.flatMap notices = [] :=
  List.flatMap_eq_nil_iff.mpr fun r hr ↦ (h r hr).notices_eq

end Reply.IsQuiet

namespace Session

private theorem divides_blank {ls ms held : List String} {ss : List Stretch}
    (h : ∀ l ∈ ls, l.toList.all isBlank = true) (hms : Divides ms ss held) :
    Divides (ls ++ ms) (ls.map .blank ++ ss) held := by
  induction ls with
  | nil => exact hms
  | cons l ls ih =>
    obtain ⟨hl, hls⟩ := List.forall_mem_cons.mp h
    exact .stretch (s := .blank l) hl (by rintro ⟨_, hends⟩; cases hends) (ih hls)

/-- The session behind blank lines, a text and blank lines. -/
private theorem respondAll_text {before run after : List String}
    (hbefore : ∀ l ∈ before, l.toList.all isBlank = true)
    (hafter : ∀ l ∈ after, l.toList.all isBlank = true) (hentered : IsEntered run)
    (hcomplete : IsComplete run) : ∃ rs rs',
      start.respondAll (before ++ run ++ after)
        = (rs ++ [.submitted (joined run)] ++ rs', start) ∧ ∀ r ∈ rs ++ rs', r.IsQuiet := by
  have hdivides : Divides (before ++ run ++ after)
      (before.map .blank ++ .text run :: (after.map .blank ++ [])) [] := by
    rw [List.append_assoc]
    have hlast := divides_blank hafter (.held isHeld_nil)
    rw [List.append_nil] at hlast
    exact divides_blank hbefore (.stretch (s := .text run) ⟨hentered, hcomplete⟩
      (by rintro ⟨_, hends⟩; cases hends) hlast)
  have hquiet : ∀ ls : List String,
      ∀ r ∈ (ls.map Stretch.blank).flatMap Stretch.replies, r.IsQuiet := by
    intro ls r hr
    obtain ⟨s, hs, hr⟩ := List.mem_flatMap.mp hr
    obtain ⟨l, -, rfl⟩ := List.mem_map.mp hs
    exact .inr ⟨_, List.mem_singleton.mp hr⟩
  refine ⟨(before.map Stretch.blank).flatMap Stretch.replies ++ Stretch.waiting 0 run.dropLast,
    (after.map Stretch.blank).flatMap Stretch.replies, ?_, ?_⟩
  · rw [hdivides.respondAll]
    simp [Stretch.replies, Stretch.waiting, start]
  · intro r hr
    rcases List.mem_append.mp hr with hr | hr
    · rcases List.mem_append.mp hr with hr | hr
      · exact hquiet _ r hr
      · exact .inl (Stretch.eq_heldBack_of_mem_waiting hr)
    · exact hquiet _ r hr

/-- **A program that is entered line by line is read as from a file.** Where a source stands alone,
with no line but blank ones before its first brace and behind its last, exactly one text is
submitted, it holds the same program, and nothing is held back behind it. So the program is shown
once, and nothing else is said. -/
theorem respondAll_program {source : String} {p : Program} (hparse : parse source = .ok p)
    (halone : StandsAlone source) :
    (∃ rs text rs',
      start.respondAll (sourceLines source) = (rs ++ [.submitted text] ++ rs', start) ∧
      (∀ r ∈ rs ++ rs', r.IsQuiet) ∧ parse text = .ok p) ∧
    ∀ (m : Type → Type) [Monad m] [LawfulMonad m] (read : FileReader m) (f : Log.Filter),
      ∃ t, serveAll read f start (sourceLines source) = pure t ∧
        t.stdout = p.outline ++ "Goodbye!\n" ∧ t.notices = [] := by
  obtain ⟨n, hderives, -⟩ := parseWithin_eq_ok_iff_derives.mp hparse
  obtain ⟨body, hbody, hscan⟩ := hderives.exists_nested
  have hsource : terminals source.toList = programTerminals body := by
    rw [map_terminal_scan] at hscan
    exact List.append_cancel_right hscan
  obtain ⟨before, run, after, hlines, hbefore, hafter, hentered, hcomplete, hrun⟩ :=
    exists_run hbody hsource halone
  obtain ⟨rs, rs', hreplies, hquiet⟩ := respondAll_text hbefore hafter hentered hcomplete
  have htext : parse (joined run) = .ok p := by
    refine (parse_eq_ok_iff_of_map_terminal_eq ?_).mp hparse
    rw [map_terminal_scan, map_terminal_scan, terminals_joined, hrun, hsource]
  rw [← hlines] at hreplies
  refine ⟨⟨rs, _, rs', hreplies, hquiet, htext⟩, fun m _ _ read f ↦ ?_⟩
  obtain ⟨hrs, hrs'⟩ := List.forall_mem_append.mp hquiet
  have hloads : ∀ r ∈ (start.respondAll (sourceLines source)).1, ¬ r.Loads := by
    rw [hreplies]
    intro r hr
    rcases List.mem_append.mp hr with hr | hr
    · rcases List.mem_append.mp hr with hr | hr
      · exact (hrs r hr).not_loads
      · rw [List.mem_singleton.mp hr]
        rintro ⟨path, hpath⟩
        cases hpath
    · exact (hrs' r hr).not_loads
  obtain ⟨t, ht, hstdout, hnotices⟩ := serveAll_eq_pure read f hloads
  refine ⟨t, ht, ?_, ?_⟩
  · rw [hstdout, hreplies]
    simp [Reply.IsQuiet.join_stdout hrs, Reply.IsQuiet.join_stdout hrs', Reply.stdout, htext]
  · rw [hnotices, hreplies]
    simp [Reply.IsQuiet.flatMap_notices hrs, Reply.IsQuiet.flatMap_notices hrs', Reply.notices,
      htext]

/-- A program between blank lines, with a brace in a comment. -/
def commentedSource : String := " \n main \x7b // \x7d\n  x := 1;\n\x7d\n\n"

theorem respondAll_program_commented :
    parse commentedSource = .ok ⟨[], ⟨[.assignment ⟨"x"⟩ (.value (.integer 1))]⟩⟩ ∧
      StandsAlone commentedSource ∧
      ∃ t, serveAll (m := Id) (fun _ ↦ .error .notFound) [] start
          (sourceLines commentedSource) = t ∧
        t.stdout = "Program\n  Declarations\n  Block\n    Assignment\n      Variable: x\n" ++
          "      Value: 1\nGoodbye!\n" ∧ t.notices = [] := by
  have hparse : parse commentedSource = .ok ⟨[], ⟨[.assignment ⟨"x"⟩ (.value (.integer 1))]⟩⟩ := by
    decide +kernel
  have halone : StandsAlone commentedSource := ⟨by decide +kernel, by decide +kernel⟩
  obtain ⟨t, ht, hstdout, hnotices⟩ :=
    (respondAll_program hparse halone).2 Id (fun _ ↦ .error .notFound) []
  refine ⟨hparse, halone, t, ht, ?_, hnotices⟩
  rw [hstdout]
  decide +kernel

end Session

end Kay
