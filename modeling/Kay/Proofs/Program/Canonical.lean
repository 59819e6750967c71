import Kay.Proofs.Program.Reread

/-!
# Formatting a program that was read

A program that comes from a source has identifiers for names, operators of the language and no
negative integers, and it is normal: an `else` that was read by an inner conditional is in the tree
where the text has it. So the one thing that can keep its own text from being read back is the limit
on nesting (`parse_text_eq_iff`).

It does. The text puts parentheses around every operand that is a binary expression, and a source
need not have them: a sum is read in a loop and opens no level, while its text opens one for each
term but two. `parse_longSum` and `printedNesting_longSum` make a program of this that is read, but
not from its own text.
-/

namespace Kay

open Grammar

/-! ## What is derived from scanned tokens -/

/-- Whether a vocabulary has everything that can come from a source. -/
structure Vocabulary.Covers (V : Vocabulary) : Prop where
  name : ∀ {name : String}, IsIdentifier name.toList → V.name name
  unary : V.unary "!"
  binary : ∀ {l : Level} {op : String}, op ∈ l.operators → V.binary op
  integer : ∀ {n : Int}, 0 ≤ n → n ≤ 2147483647 → V.integer n

theorem Grammar.mem_operators_of_level {l : Level} {op : String} (h : op ∈ l.operators) :
    op ∈ operators := by
  have hall : ∀ o ∈ l.operators, o ∈ operators := by cases l <;> decide
  exact hall op h

private theorem Vocabulary.covers_writable : Vocabulary.writable.Covers where
  name h := h
  unary := .inl (by decide)
  binary h := .inl (mem_operators_of_level h)
  integer _ _ := trivial

theorem Vocabulary.covers_readable : Vocabulary.readable.Covers where
  name _ := trivial
  unary := rfl
  binary {l op} h := by
    have hall : ∀ o ∈ l.operators,
        o ∈ ["||", "&&", "<", "<=", ">", ">=", "==", "!=", "+", "-", "*", "/"] := by
      cases l <;> decide
    exact hall op h
  integer h _ := h

/-- Whether terminals can come from a text. -/
def Scannable (w : List Terminal) : Prop := ∀ t ∈ w, Admissible t.kind t.text.toList

private theorem Scannable.part {u w : List Terminal} (h : Scannable w) (hpart : ∀ t ∈ u, t ∈ w) :
    Scannable u :=
  fun t ht ↦ h t (hpart t ht)

private theorem Scannable.identifier {w : List Terminal} {name : String} (h : Scannable w)
    (hmem : .identifier name ∈ w) : IsIdentifier name.toList := by
  have hadm := h _ hmem
  cases hadm with
  | identifier h => exact h

section

variable {V : Vocabulary}

private theorem Grammar.Atom.over (hV : V.Covers) {t : Terminal} {e : Expression} (h : Atom t e)
    (ht : Scannable [t]) : e.Over V := by
  cases h with
  | reference name => exact hV.name (ht.identifier (by simp))
  | @literal text h =>
    have hsmall : decimalValue text < 2 ^ 31 := by omega
    rw [Expression.Over, Int32.toInt_ofNat_of_lt hsmall]
    exact hV.integer (Int.natCast_nonneg _) (by omega)
  | true | false => exact trivial

private theorem Grammar.DerivesExpression.over (hV : V.Covers) {l : Level} {w : List Terminal}
    {e : Expression} {n : Nat} (h : DerivesExpression l w e n) (hw : Scannable w) : e.Over V := by
  induction h with
  | atom h => exact h.over hV hw
  | group _ ih => exact ih (hw.part (by simp +contextual))
  | not _ ih => exact ⟨hV.unary, ih (hw.part (by simp +contextual))⟩
  | operand _ _ ih => exact ih hw
  | chain _ hop _ _ ihe ihf | compare hop _ _ ihe ihf =>
    exact ⟨hV.binary hop, ihe (hw.part (by simp +contextual)), ihf (hw.part (by simp +contextual))⟩

mutual

private theorem Grammar.DerivesStatement.over (hV : V.Covers) : ∀ {w s n}, DerivesStatement w s n →
    Scannable w → s.Over V
  | _, _, _, .skip, _ => trivial
  | _, _, _, .assignment name he, hw =>
    ⟨hV.name (hw.identifier (by simp)), he.over hV (hw.part (by simp +contextual))⟩
  | _, _, _, .ifThen hb ht, hw =>
    ⟨hb.over hV (hw.part (by simp +contextual)), ht.over hV (hw.part (by simp +contextual))⟩
  | _, _, _, .ifThenElse hb ht _ he, hw =>
    ⟨hb.over hV (hw.part (by simp +contextual)), ht.over hV (hw.part (by simp +contextual)),
      he.over hV (hw.part (by simp +contextual))⟩
  | _, _, _, .loop hb hs, hw =>
    ⟨hb.over hV (hw.part (by simp +contextual)), hs.over hV (hw.part (by simp +contextual))⟩
  | _, _, _, .block hms, hw => hms.over hV (hw.part (by simp +contextual))

private theorem Grammar.DerivesStatements.over (hV : V.Covers) : ∀ {w ms n},
    DerivesStatements w ms n → Scannable w → Statement.MembersOver V ms
  | _, _, _, .nil, _ => trivial
  | _, _, _, .cons hs hms, hw =>
    ⟨hs.over hV (hw.part (by simp +contextual)), hms.over hV (hw.part (by simp +contextual))⟩

end

private theorem Grammar.DerivesNames.over (hV : V.Covers) {ty : VarType} {w : List Terminal}
    {ds : List Declaration} (h : DerivesNames ty w ds) (hw : Scannable w) :
    ∀ d ∈ ds, V.name d.declared.name := by
  induction h with
  | last name =>
    rw [List.forall_mem_singleton]
    exact hV.name (hw.identifier (by simp))
  | cons name _ ih =>
    rw [List.forall_mem_cons]
    exact ⟨hV.name (hw.identifier (by simp)), ih (hw.part (by simp +contextual))⟩

private theorem Grammar.DerivesDeclarations.over (hV : V.Covers) {w : List Terminal}
    {ds : List Declaration} (h : DerivesDeclarations w ds) (hw : Scannable w) :
    ∀ d ∈ ds, V.name d.declared.name := by
  induction h with
  | nil => simp
  | cons hnames _ ih =>
    rw [List.forall_mem_append]
    exact ⟨hnames.over hV (hw.part (by simp +contextual)), ih (hw.part (by simp +contextual))⟩

end

mutual

/-- In a derived statement no first branch takes an `else` from the conditional around it. -/
private theorem Grammar.DerivesStatement.normal : ∀ {w s n}, DerivesStatement w s n → s.Normal
  | _, _, _, .skip | _, _, _, .assignment _ _ => trivial
  | _, _, _, .ifThen _ ht => ht.normal
  | _, _, _, .ifThenElse _ ht hopen he => ⟨ht.normal, hopen, he.normal⟩
  | _, _, _, .loop _ hs => hs.normal
  | _, _, _, .block hms => hms.normal

private theorem Grammar.DerivesStatements.normal : ∀ {w ms n}, DerivesStatements w ms n →
    Statement.MembersNormal ms
  | _, _, _, .nil => trivial
  | _, _, _, .cons hs hms => ⟨hs.normal, hms.normal⟩

end

namespace Program

variable {source : String} {p : Program} {limit : Nat}

private theorem scannable_terminals (cs : List Char) : Scannable (Kay.terminals cs) := by
  intro t ht
  obtain ⟨l, hl, rfl⟩ := List.mem_map.mp ht
  rw [Lexeme.terminal, String.toList_ofList]
  exact admissible_of_mem_lexemes hl

/-- What is known of a program that comes from a source. -/
theorem over_and_normal_of_derives {V : Vocabulary} (hV : V.Covers) {n : Nat}
    (h : DerivesProgram ((Token.scan source).map Token.terminal) p n) : p.Over V ∧ p.Normal := by
  -- The tokens of the source come from a text, and so do those of all parts of the derivation.
  have hscan := scannable_terminals source.toList
  rw [map_terminal_scan] at h
  generalize hall : Kay.terminals source.toList ++ [.endOfInput] = w at h
  obtain @⟨u, v, ds, ms, n, hds, hms⟩ := h
  have htokens : Kay.terminals source.toList =
      .keyword "main" :: .separator "\x7b" :: (u ++ (v ++ [.separator "\x7d"])) := by
    refine List.append_cancel_right (hall.trans ?_)
    simp
  rw [htokens] at hscan
  exact ⟨⟨hds.over hV (hscan.part (by simp +contextual)),
    hms.over hV (hscan.part (by simp +contextual))⟩, hms.normal⟩

private theorem over_and_normal_of_parseWithin (h : parseWithin limit source = .ok p) :
    p.Over .writable ∧ p.Over .readable ∧ p.Normal := by
  obtain ⟨n, hderives, -⟩ := parseWithin_eq_ok_iff_derives.mp h
  exact ⟨(over_and_normal_of_derives Vocabulary.covers_writable hderives).1,
    over_and_normal_of_derives Vocabulary.covers_readable hderives⟩

/-- A program that was read under some limit is read back from its own text under another exactly if
the nesting of the text is within that one. -/
private theorem parseWithin_text_of_parseWithin {limit' : Nat}
    (h : parseWithin limit source = .ok p) (level : Nat) :
    parseWithin limit' (p.text level) = .ok p ↔ p.printedNesting ≤ limit' := by
  obtain ⟨hwritable, hreadable, hnormal⟩ := over_and_normal_of_parseWithin h
  rw [parseWithin_text_eq_ok_iff hwritable level, hnormal.normalized_eq]
  exact ⟨fun h ↦ h.2.2, fun h ↦ ⟨rfl, hreadable, h⟩⟩

/-! ## Long sums -/

/-- The sum of `n + 1` ones, joined from the left. -/
def ones : Nat → Expression
  | 0 => .value (.integer 1)
  | n + 1 => .binary ⟨"+"⟩ (ones n) (.value (.integer 1))

/-- The sum as it may stand in a source. -/
def onesText : Nat → String
  | 0 => "1"
  | n + 1 => onesText n ++ "+1"

/-- The terminals of the sum in a source. -/
def onesTerminals : Nat → List Terminal
  | 0 => [.literal "1"]
  | n + 1 => onesTerminals n ++ [.operator "+", .literal "1"]

/-- A program that calculates a sum. -/
def longSum (n : Nat) : Program := ⟨[], ⟨[.assignment ⟨"x"⟩ (ones n)]⟩⟩

/-- A source of the program, without parentheses. -/
def longSumSource (n : Nat) : String := "main \x7b x := " ++ onesText n ++ "; \x7d"

private theorem spells_onesText (n : Nat) : Spells endsWord (onesText n) (onesTerminals n) := by
  have hone : Spells endsWord "1" [.literal "1"] := spells_literal (by decide) (by decide)
  induction n with
  | zero => exact hone
  | succ n ih =>
    have hplus : Spells endsSign "+" [.operator "+"] := spells_operator (by decide)
    have hterm : Spells endsWord "+1" [.operator "+", .literal "1"] :=
      hplus.append_of_head hone ⟨'1', rfl, rfl⟩
    exact ih.append_of_head hterm ⟨'+', rfl, endsWord_of_mem (by decide)⟩

/-- A sum opens no level. -/
private theorem derives_ones (n : Nat) :
    DerivesExpression .addition (onesTerminals n) (ones n) 0 := by
  have hatom : Atom (.literal "1") (.value (.integer 1)) := .literal (by decide)
  have hone : DerivesExpression .negation [.literal "1"] (.value (.integer 1)) 0 :=
    .operand (by decide) (.atom hatom)
  induction n with
  | zero => exact hone.of_negation (by decide)
  | succ n ih => exact .chain rfl (by decide) ih (hone.of_negation (by decide))

private theorem terminals_longSumSource (n : Nat) : Kay.terminals (longSumSource n).toList =
    .keyword "main" :: .separator "\x7b" :: .identifier "x" :: .operator ":=" ::
      (onesTerminals n ++ [.separator ";", .separator "\x7d"]) := by
  have hblank : Spells anything " " [] := spells_blank (by decide)
  have hmain : Spells endsWord "main" [.keyword "main"] := spells_keyword (by decide)
  have hopen : Spells anything "\x7b" [.separator "\x7b"] := spells_separator (by decide)
  have hx : Spells endsWord "x" [.identifier "x"] :=
    spells_identifier ⟨⟨'x', [], rfl, by decide +kernel, by simp⟩, by decide⟩
  have hassign : Spells endsSign ":=" [.operator ":="] := spells_operator (by decide)
  have hend : Spells anything ";" [.separator ";"] := spells_separator (by decide)
  have hclose : Spells anything "\x7d" [.separator "\x7d"] := spells_separator (by decide)
  have hhead := (hmain.append_of_head hblank ⟨' ', rfl, endsWord_of_isBlank rfl⟩).append hopen
  have htarget := ((hhead.append hblank).append hx).append_of_head hblank
    ⟨' ', rfl, endsWord_of_isBlank rfl⟩
  have hfront : Spells anything "main \x7b x := " _ :=
    (htarget.append hassign).append_of_head hblank ⟨' ', rfl, rfl⟩
  have htail : Spells anything "; \x7d" _ := (hend.append hblank).append hclose
  have hspells := (hfront.append (spells_onesText n)).append_of_head htail
    ⟨';', rfl, endsWord_of_mem (by decide)⟩
  have hall := hspells.terminals_append [] (by simp)
  rw [List.append_nil, terminals_nil, List.append_nil] at hall
  rw [longSumSource, hall]
  simp

/-- However long, a sum is read. -/
theorem parse_longSum (n : Nat) : parse (longSumSource n) = .ok (longSum n) := by
  have hassign := DerivesStatement.assignment "x" (derives_ones n).to_disjunction
  have hprogram := DerivesProgram.intro .nil (.cons hassign .nil)
  refine parseWithin_eq_ok_iff_derives.mpr ⟨1, ?_, by decide⟩
  rw [map_terminal_scan, terminals_longSumSource, longSum]
  simpa using hprogram

private theorem printedNesting_ones (n : Nat) : (ones (n + 1)).printedNesting = n := by
  induction n with
  | zero => rfl
  | succ n ih =>
    rw [ones, Expression.printedNesting, ih]
    exact Nat.max_zero (n + 1)

/-- The text of a sum opens a level for all its terms but two, and one for the statement. -/
theorem printedNesting_longSum (n : Nat) : (longSum (n + 1)).printedNesting = n + 1 := by
  have hassign : (longSum (n + 1)).printedNesting = (ones (n + 1)).printedNesting + 1 :=
    Nat.max_zero _
  rw [hassign, printedNesting_ones]

/-- No limit is enough for all sums. -/
private theorem parseWithin_text_longSum (limit n : Nat) :
    parseWithin limit ((longSum (n + 1)).text 0) = .ok (longSum (n + 1)) ↔ n + 1 ≤ limit := by
  have hread : parseWithin maxNesting (longSumSource (n + 1)) = .ok (longSum (n + 1)) := by
    rw [parseWithin_maxNesting, parse_longSum]
  rw [parseWithin_text_of_parseWithin hread, printedNesting_longSum]

/-- A program that was read is read back from its canonical text exactly if the nesting of that text
is within the limit. -/
theorem parse_text_eq_iff (h : parse source = .ok p) :
    parse (p.text 0) = .ok p ↔ p.printedNesting ≤ maxNesting :=
  parseWithin_text_of_parseWithin h 0

/-- The longest sum that is read back. -/
theorem parse_text_longSum : parse (longSumSource 128) = .ok (longSum 128) ∧
    parse ((longSum 128).text 0) = .ok (longSum 128) := by
  refine ⟨parse_longSum 128, (parse_text_eq_iff (parse_longSum 128)).mpr ?_⟩
  rw [printedNesting_longSum]
  decide

/-- With one term more, a sum is still read, but no longer from its own text. -/
theorem parse_text_longSum_ne : parse (longSumSource 129) = .ok (longSum 129) ∧
    parse ((longSum 129).text 0) ≠ .ok (longSum 129) := by
  refine ⟨parse_longSum 129, fun h ↦ ?_⟩
  rw [← parseWithin_maxNesting, parseWithin_text_longSum maxNesting 128] at h
  exact absurd h (by decide)

end Program

end Kay
