import Kay.Proofs.Program.Canonical
import Kay.Proofs.Token.Spaced

/-!
# Which programs have a source

A program is the tree of some source exactly if its names, operators and integers are those of the
language, no `else` could be taken by a conditional inside a first branch, and it can be written
within the limit on nesting (`exists_parse_eq_ok_iff`).

How deep a program has to nest is a number of the tree (`leastNesting`). A statement counts for one
level. An operand counts for one more where its operator binds less than its position asks for, so
that the grammar has it in parentheses. No derivation has a smaller nesting, since each step of one
only ever loosens the position; and a derivation with this nesting is built by putting exactly these
parentheses. Its terminals are those of a source, because every list of terminals that can be
scanned is (`exists_map_terminal_scan`).
-/

namespace Kay

open Grammar

/-- What a tree may hold that comes from a source. -/
def Vocabulary.language : Vocabulary where
  name name := IsIdentifier name.toList
  unary op := op = "!"
  binary op := op ∈ ["||", "&&", "<", "<=", ">", ">=", "==", "!=", "+", "-", "*", "/"]
  integer n := 0 ≤ n ∧ n ≤ 2147483647

private theorem Vocabulary.covers_language : Vocabulary.language.Covers where
  name h := h
  unary := rfl
  binary := Vocabulary.covers_readable.binary
  integer h h' := ⟨h, h'⟩

/-! ## Where an expression can stand -/

namespace Grammar.Level

/-- The levels by number, those that bind more having the greater ones. -/
def rank : Level → Nat
  | disjunction => 0
  | conjunction => 1
  | relation => 2
  | addition => 3
  | term => 4
  | negation => 5
  | factor => 6

/-- The position of a left operand. A chain goes on at its own level, a comparison does not. -/
def left (l : Level) : Level := if l.associates then l else l.tighter

private theorem rank_le_rank_tighter (l : Level) : l.rank ≤ l.tighter.rank := by
  cases l <;> decide

private theorem rank_tighter {l : Level} (hl : l ≠ .factor) : l.tighter.rank = l.rank + 1 := by
  cases l <;> first | rfl | exact absurd rfl hl

private theorem rank_le_factor (l : Level) : l.rank ≤ factor.rank := by
  cases l <;> decide

theorem rank_injective {l l' : Level} (h : l.rank = l'.rank) : l = l' := by
  cases l <;> cases l' <;> first | rfl | exact absurd h (by decide)

end Grammar.Level

/-- The level of an operator between two operands. -/
def Operator.level (op : Operator) : Level :=
  if op.lexeme = "||" then .disjunction
  else if op.lexeme = "&&" then .conjunction
  else if op.lexeme ∈ ["+", "-"] then .addition
  else if op.lexeme ∈ ["*", "/"] then .term
  else .relation

private theorem Operator.level_eq {l : Level} {op : String} (h : op ∈ l.operators) :
    (⟨op⟩ : Operator).level = l := by
  have hall : ∀ o ∈ l.operators, (⟨o⟩ : Operator).level = l := by cases l <;> decide
  exact hall op h

namespace Expression

/-- The tightest level at which an expression can stand without parentheses. -/
def level : Expression → Level
  | .variable _ | .value _ => .factor
  | .unary _ _ => .negation
  | .binary op _ _ => op.level

/-- Whether the grammar has an expression in parentheses at a level: a binary operand of an operator
that binds more, a right operand with an operator of the same level, a comparison that is compared,
and a unary or binary operand of `!`. -/
def needsParentheses (l : Level) (x : Expression) : Bool := x.level.rank < l.rank

/-- The least number of parentheses that are open at once in a text of an expression. -/
def leastNesting : Expression → Nat
  | .variable _ | .value _ => 0
  | .unary _ operand => groupedNesting (operand.needsParentheses .factor) operand.leastNesting
  | .binary op left right =>
    max (groupedNesting (left.needsParentheses op.level.left) left.leastNesting)
      (groupedNesting (right.needsParentheses op.level.tighter) right.leastNesting)

/-- The least nesting of an expression that stands at a level. -/
def nestingAt (l : Level) (x : Expression) : Nat :=
  groupedNesting (x.needsParentheses l) x.leastNesting

variable {x : Expression} {l l' : Level}

private theorem nestingAt_of_rank_le (h : l.rank ≤ x.level.rank) :
    x.nestingAt l = x.leastNesting := by
  rw [nestingAt, needsParentheses, groupedNesting, if_neg (by simpa using h)]

private theorem nestingAt_of_rank_lt (h : x.level.rank < l.rank) :
    x.nestingAt l = x.leastNesting + 1 := by
  rw [nestingAt, needsParentheses, groupedNesting, if_pos (decide_eq_true h)]

@[simp]
theorem nestingAt_disjunction (x : Expression) : x.nestingAt .disjunction = x.leastNesting :=
  nestingAt_of_rank_le (Nat.zero_le _)

private theorem nestingAt_le_leastNesting_succ (l : Level) (x : Expression) :
    x.nestingAt l ≤ x.leastNesting + 1 := by
  rw [nestingAt, groupedNesting]
  split
  · exact Nat.le_refl _
  · exact Nat.le_succ _

/-- A tighter position asks for no less. -/
private theorem nestingAt_mono (h : l.rank ≤ l'.rank) : x.nestingAt l ≤ x.nestingAt l' := by
  rcases Nat.lt_or_ge x.level.rank l'.rank with hlt | hge
  · rw [nestingAt_of_rank_lt hlt]
    exact nestingAt_le_leastNesting_succ l x
  · rw [nestingAt_of_rank_le hge, nestingAt_of_rank_le (h.trans hge)]

end Expression

/-- No derivation of an expression has a smaller nesting. -/
private theorem Grammar.DerivesExpression.nestingAt_le {l : Level} {w : List Terminal}
    {x : Expression} {n : Nat} (h : DerivesExpression l w x n) : x.nestingAt l ≤ n := by
  induction h with
  | atom h => cases h <;> exact Nat.le_refl 0
  | @group w x n _ ih =>
    rw [Expression.nestingAt_disjunction] at ih
    exact (Expression.nestingAt_le_leastNesting_succ _ x).trans (Nat.succ_le_succ ih)
  | not _ ih => exact ih
  | @operand l w x n _ _ ih => exact (Expression.nestingAt_mono l.rank_le_rank_tighter).trans ih
  | @chain l op u v x y m n hl hop _ _ ihx ihy =>
    have hlevel := Operator.level_eq hop
    rw [Expression.nestingAt_of_rank_le (by rw [Expression.level, hlevel]), Expression.leastNesting,
      hlevel, Level.left, if_pos hl]
    exact max_le_max ihx ihy
  | @compare op u v x y m n hop _ _ ihx ihy =>
    have hlevel := Operator.level_eq hop
    rw [Expression.nestingAt_of_rank_le (by rw [Expression.level, hlevel]), Expression.leastNesting,
      hlevel]
    exact max_le_max ihx ihy

namespace Statement

mutual

/-- The least number of statements and parentheses of expressions that are open at once in a text of
a statement. -/
def leastNesting : Statement → Nat
  | skip => 1
  | assignment _ source => source.leastNesting + 1
  | conditional test thenBranch none => max test.leastNesting thenBranch.leastNesting + 1
  | conditional test thenBranch (some elseBranch) =>
    max test.leastNesting (max thenBranch.leastNesting elseBranch.leastNesting) + 1
  | loop test body => max test.leastNesting body.leastNesting + 1
  | block members => leastNestingOf members + 1

/-- The least nesting of statements in sequence. -/
def leastNestingOf : List Statement → Nat
  | [] => 0
  | m :: ms => max m.leastNesting (leastNestingOf ms)

end

end Statement

/-- The least nesting of a text of a program. -/
def Program.leastNesting (p : Program) : Nat := Statement.leastNestingOf p.body.members

private theorem Grammar.DerivesExpression.leastNesting_le {w : List Terminal} {x : Expression}
    {n : Nat} (h : DerivesExpression .disjunction w x n) : x.leastNesting ≤ n := by
  rw [← Expression.nestingAt_disjunction]
  exact h.nestingAt_le

mutual

private theorem Grammar.DerivesStatement.leastNesting_le : ∀ {w s n}, DerivesStatement w s n →
    s.leastNesting ≤ n
  | _, _, _, .skip => Nat.le_refl _
  | _, _, _, .assignment _ he => Nat.succ_le_succ he.leastNesting_le
  | _, _, _, .ifThen hb ht => Nat.succ_le_succ (max_le_max hb.leastNesting_le ht.leastNesting_le)
  | _, _, _, .ifThenElse hb ht _ he => Nat.succ_le_succ
    (max_le_max hb.leastNesting_le (max_le_max ht.leastNesting_le he.leastNesting_le))
  | _, _, _, .loop hb hs => Nat.succ_le_succ (max_le_max hb.leastNesting_le hs.leastNesting_le)
  | _, _, _, .block hms => Nat.succ_le_succ hms.leastNestingOf_le

private theorem Grammar.DerivesStatements.leastNestingOf_le : ∀ {w ms n}, DerivesStatements w ms n →
    Statement.leastNestingOf ms ≤ n
  | _, _, _, .nil => Nat.le_refl _
  | _, _, _, .cons hs hms => max_le_max hs.leastNesting_le hms.leastNestingOf_le

end

private theorem Grammar.DerivesProgram.leastNesting_le {w : List Terminal} {p : Program} {n : Nat}
    (h : DerivesProgram w p n) : p.leastNesting ≤ n := by
  obtain ⟨-, hms⟩ := h
  exact hms.leastNestingOf_le

/-! ## A text with the least nesting -/

/-- What is derived at a level can stand at a looser one. -/
private theorem Grammar.DerivesExpression.of_rank_le {l l' : Level} {w : List Terminal}
    {x : Expression} {n : Nat} (h : DerivesExpression l' w x n) (hle : l.rank ≤ l'.rank) :
    DerivesExpression l w x n := by
  -- By induction on the number of levels in between, each of which takes a single operand.
  generalize hk : l'.rank - l.rank = k
  induction k generalizing l with
  | zero =>
    have hrank : l.rank = l'.rank := by omega
    obtain rfl := Level.rank_injective hrank
    exact h
  | succ k ih =>
    have hl : l ≠ .factor := by
      rintro rfl
      have := l'.rank_le_factor
      omega
    have hrank := Level.rank_tighter hl
    exact .operand hl (ih (by omega) (by omega))

/-! The terminals of a text with the least nesting can be scanned. -/

private theorem scannable_nil : Scannable [] := nofun

private theorem scannable_cons {t : Terminal} {w : List Terminal}
    (ht : Admissible t.kind t.text.toList) (hw : Scannable w) : Scannable (t :: w) :=
  List.forall_mem_cons.mpr ⟨ht, hw⟩

private theorem scannable_append {u v : List Terminal} (hu : Scannable u) (hv : Scannable v) :
    Scannable (u ++ v) :=
  List.forall_mem_append.mpr ⟨hu, hv⟩

private theorem scannable_separator {text : String} (h : text ∈ separators) {w : List Terminal}
    (hw : Scannable w) : Scannable (.separator text :: w) :=
  scannable_cons (.of_mem_separators h) hw

private theorem scannable_keyword {text : String} (h : text ∈ keywords) {w : List Terminal}
    (hw : Scannable w) : Scannable (.keyword text :: w) :=
  scannable_cons (.of_mem_keywords h) hw

private theorem scannable_operator {text : String} (h : text ∈ operators) {w : List Terminal}
    (hw : Scannable w) : Scannable (.operator text :: w) :=
  scannable_cons (.of_mem_operators h) hw

private theorem scannable_digits (k : Nat) :
    Scannable [.literal (String.ofList (Text.Decimal.digits k))] := by
  obtain ⟨c, cs, heq, -⟩ := exists_cons_digits k
  refine scannable_cons (.literal ?_ ?_) scannable_nil
  · rw [String.toList_ofList, heq]
    exact List.cons_ne_nil c cs
  · rw [String.toList_ofList]
    exact Text.Decimal.isAsciiDigit_of_mem_digits k

/-- The head of a conditional or a loop, and what follows it. -/
private theorem scannable_guard {word : String} (hword : word ∈ keywords) {w u : List Terminal}
    (hw : Scannable w) (hu : Scannable u) :
    Scannable (.keyword word :: .separator "(" :: (w ++ .separator ")" :: u)) :=
  scannable_keyword hword (scannable_separator (by decide)
    (scannable_append hw (scannable_separator (by decide) hu)))

namespace Expression

variable {x : Expression}

/-- An expression that can be written can be written wherever it stands. -/
private theorem exists_derives_at
    (h : ∃ w, Scannable w ∧ DerivesExpression x.level w x x.leastNesting) (l : Level) :
    ∃ w, Scannable w ∧ DerivesExpression l w x (x.nestingAt l) := by
  obtain ⟨w, hw, hx⟩ := h
  rcases Nat.lt_or_ge x.level.rank l.rank with hlt | hge
  · -- In parentheses it is a factor, which can stand at every level.
    rw [nestingAt_of_rank_lt hlt]
    have hgroup := DerivesExpression.group (hx.of_rank_le (l := .disjunction) (Nat.zero_le _))
    have hclose : Scannable (w ++ [.separator ")"]) :=
      scannable_append hw (scannable_separator (by decide) scannable_nil)
    exact ⟨_, scannable_separator (by decide) hclose, hgroup.of_rank_le l.rank_le_factor⟩
  · rw [nestingAt_of_rank_le hge]
    exact ⟨w, hw, hx.of_rank_le hge⟩

/-- Every expression of the language can be written with its least nesting. -/
theorem exists_derives (h : x.Over .language) :
    ∃ w, Scannable w ∧ DerivesExpression x.level w x x.leastNesting := by
  induction x with
  | «variable» v =>
    obtain ⟨name⟩ := v
    exact ⟨_, scannable_cons (.identifier h) scannable_nil, .atom (.reference name)⟩
  | value v =>
    rcases v with n | b
    · obtain ⟨k, hk⟩ := Int.eq_ofNat_of_zero_le h.1
      exact ⟨_, scannable_digits k, .atom (atom_digits hk)⟩
    · cases b with
      | true =>
        exact ⟨_, scannable_keyword (by decide) scannable_nil, .atom .true⟩
      | false =>
        exact ⟨_, scannable_keyword (by decide) scannable_nil, .atom .false⟩
  | unary op operand ih =>
    obtain ⟨lexeme⟩ := op
    obtain rfl : lexeme = "!" := h.1
    obtain ⟨w, hw, hx⟩ := exists_derives_at (ih h.2) .factor
    exact ⟨_, scannable_operator (by decide) hw, .not hx⟩
  | binary op left right ihl ihr =>
    obtain ⟨lexeme⟩ := op
    obtain ⟨l, hmem, hl⟩ := exists_level h.1
    have hlevel := Operator.level_eq hmem
    obtain ⟨u, hu, hleft⟩ := exists_derives_at (ihl h.2.1) l.left
    obtain ⟨v, hv, hright⟩ := exists_derives_at (ihr h.2.2) l.tighter
    have hscan : Scannable (u ++ .operator lexeme :: v) :=
      scannable_append hu (scannable_operator (mem_operators_of_level hmem) hv)
    refine ⟨_, hscan, ?_⟩
    rw [level, leastNesting, hlevel]
    rcases hl with hl | rfl
    · rw [Level.left, if_pos hl] at hleft ⊢
      exact .chain hl hmem hleft hright
    · exact .compare hmem hleft hright

/-- Every expression of the language can be written where any expression can stand. -/
private theorem exists_derives_disjunction (h : x.Over .language) :
    ∃ w, Scannable w ∧ DerivesExpression .disjunction w x x.leastNesting := by
  have hx := exists_derives_at (exists_derives h) .disjunction
  rwa [nestingAt_disjunction] at hx

end Expression

namespace Statement

mutual

/-- Every normal statement of the language can be written with its least nesting. -/
theorem exists_derives : ∀ {s : Statement}, s.Over .language → s.Normal →
    ∃ w, Scannable w ∧ DerivesStatement w s s.leastNesting
  | skip, _, _ => ⟨_, scannable_separator (by decide) scannable_nil, .skip⟩
  | assignment x _, h, _ => by
    obtain ⟨w, hw, hx⟩ := Expression.exists_derives_disjunction h.2
    have hend : Scannable (w ++ [.separator ";"]) :=
      scannable_append hw (scannable_separator (by decide) scannable_nil)
    exact ⟨_, scannable_cons (.identifier h.1) (scannable_operator (by decide) hend),
      .assignment x.name hx⟩
  | conditional _ t none, h, hn => by
    obtain ⟨w, hw, hb⟩ := Expression.exists_derives_disjunction h.1
    obtain ⟨u, hu, ht⟩ := exists_derives (s := t) h.2 hn
    exact ⟨_, scannable_guard (by decide) hw hu, .ifThen hb ht⟩
  | conditional _ t (some e), h, hn => by
    obtain ⟨w, hw, hb⟩ := Expression.exists_derives_disjunction h.1
    obtain ⟨u, hu, ht⟩ := exists_derives h.2.1 hn.1
    obtain ⟨v, hv, he⟩ := exists_derives h.2.2 hn.2.2
    have hbranches : Scannable (u ++ .keyword "else" :: v) :=
      scannable_append hu (scannable_keyword (by decide) hv)
    exact ⟨_, scannable_guard (by decide) hw hbranches, .ifThenElse hb ht hn.2.1 he⟩
  | loop _ s, h, hn => by
    obtain ⟨w, hw, hb⟩ := Expression.exists_derives_disjunction h.1
    obtain ⟨u, hu, hs⟩ := exists_derives (s := s) h.2 hn
    exact ⟨_, scannable_guard (by decide) hw hu, .loop hb hs⟩
  | block ms, h, hn => by
    have hmembers : ∃ w, Scannable w ∧ DerivesStatements w ms (leastNestingOf ms) :=
      exists_derivesOf h hn
    obtain ⟨w, hw, hms⟩ := hmembers
    have hend : Scannable (w ++ [.separator "\x7d"]) :=
      scannable_append hw (scannable_separator (by decide) scannable_nil)
    exact ⟨_, scannable_separator (by decide) hend, .block hms⟩

/-- Normal statements of the language can be written with their least nesting. -/
private theorem exists_derivesOf : ∀ {ms : List Statement}, MembersOver .language ms →
    MembersNormal ms → ∃ w, Scannable w ∧ DerivesStatements w ms (leastNestingOf ms)
  | [], _, _ => ⟨_, scannable_nil, .nil⟩
  | _ :: _, h, hn => by
    obtain ⟨u, hu, hm⟩ := exists_derives h.1 hn.1
    obtain ⟨w, hw, hms⟩ := exists_derivesOf h.2 hn.2
    exact ⟨_, scannable_append hu hw, .cons hm hms⟩

end

end Statement

private theorem scannable_declarations {ds : List Declaration}
    (h : ∀ d ∈ ds, IsIdentifier d.declared.name.toList) :
    Scannable (ds.flatMap Declaration.terminals) := by
  induction ds with
  | nil => exact scannable_nil
  | cons d ds ih =>
    rw [List.forall_mem_cons] at h
    have hkeyword : d.ty.keyword ∈ keywords := by
      cases d.ty <;> decide
    have hd : Scannable d.terminals :=
      scannable_keyword hkeyword (scannable_cons (.identifier h.1)
        (scannable_separator (by decide) scannable_nil))
    exact scannable_append hd (ih h.2)

/-! ## Programs -/

namespace Program

/-- Every normal program of the language has a source with its least nesting. -/
private theorem exists_derives_scan {p : Program} (h : p.Over .language) (hn : p.Normal) :
    ∃ source, DerivesProgram ((Token.scan source).map Token.terminal) p p.leastNesting := by
  obtain ⟨ds, ⟨ms⟩⟩ := p
  obtain ⟨w, hw, hms⟩ := Statement.exists_derivesOf h.2 hn
  have hbody : Scannable (ds.flatMap Declaration.terminals ++ (w ++ [.separator "\x7d"])) :=
    scannable_append (scannable_declarations h.1)
      (scannable_append hw (scannable_separator (by decide) scannable_nil))
  have hscan : Scannable (.keyword "main" :: .separator "\x7b" ::
      (ds.flatMap Declaration.terminals ++ (w ++ [.separator "\x7d"]))) :=
    scannable_keyword (by decide) (scannable_separator (by decide) hbody)
  obtain ⟨source, hsource⟩ := exists_map_terminal_scan hscan
  refine ⟨source, ?_⟩
  have hprogram := DerivesProgram.intro (derives_declarations ds) hms
  rw [hsource]
  simpa [leastNesting] using hprogram

/-- Under any limit, the programs that have a source are those of the language that are normal and
can be written within the limit. -/
private theorem exists_parseWithin_eq_ok_iff {limit : Nat} {p : Program} :
    (∃ source, parseWithin limit source = .ok p) ↔
      p.Over .language ∧ p.Normal ∧ p.leastNesting ≤ limit := by
  constructor
  · rintro ⟨source, h⟩
    obtain ⟨n, hderives, hn⟩ := parseWithin_eq_ok_iff_derives.mp h
    obtain ⟨hover, hnormal⟩ := over_and_normal_of_derives Vocabulary.covers_language hderives
    exact ⟨hover, hnormal, hderives.leastNesting_le.trans hn⟩
  · rintro ⟨hover, hnormal, hn⟩
    obtain ⟨source, hderives⟩ := exists_derives_scan hover hnormal
    exact ⟨source, parseWithin_eq_ok_iff_derives.mpr ⟨_, hderives, hn⟩⟩

end Program

/-- A program is the tree of some source exactly if its names are identifiers, its integers and
operators those of the language, no first branch of a conditional with an `else` ends in an open
`if`, and its least nesting is within the limit. -/
theorem exists_parse_eq_ok_iff (p : Program) : (∃ source, parse source = .ok p) ↔
    p.Over .language ∧ p.Normal ∧ p.leastNesting ≤ maxNesting :=
  Program.exists_parseWithin_eq_ok_iff

end Kay
