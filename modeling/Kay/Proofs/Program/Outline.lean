import Kay.Program.Outline
import Kay.Proofs.Program.Normal
import Kay.Text.Pieces

/-!
# What an outline says about its tree

Two trees with the same outline are the same, if no name and no operator holds a line feed
(`outline_eq_iff`). A line feed would start a line of its own, which could pass for another node.

A text gives back its lines, since no node starts with a blank: the blanks in front are the level,
and they say nothing else (`OutlineLine.join_inj`). The lines of an expression end where its
operands do, whatever stands below (`Expression.outlineLines_inj`). The lines of a statement end so
only if what stands below can neither be one of its members nor its `Else` (`Follows`). This is
where the levels count: a branch is one level deeper than its conditional, so the `Else` behind the
branch is not one of its own.
-/

namespace Kay

open Text

/-! ## From a text to its lines -/

/-- Whether the text of a line stays on it and starts where the indentation ends. -/
def OutlineLine.Plain (l : OutlineLine) : Prop :=
  '\n' ∉ l.text.toList ∧ l.text.toList.head? ≠ some ' '

/-- How often an element is repeated in front of a list that does not start with it. -/
private theorem replicate_append_inj {α : Type} {a : α} {as bs : List α} (has : as.head? ≠ some a)
    (hbs : bs.head? ≠ some a) {m n : Nat}
    (h : List.replicate m a ++ as = List.replicate n a ++ bs) : m = n ∧ as = bs := by
  induction m generalizing n with
  | zero =>
    cases n with
    | zero => exact ⟨rfl, h⟩
    | succ n => exact absurd (congrArg List.head? h) has
  | succ m ih =>
    cases n with
    | zero => exact absurd (congrArg List.head? h).symm hbs
    | succ n =>
      obtain ⟨rfl, heq⟩ := ih (List.cons.inj h).2
      exact ⟨rfl, heq⟩

namespace OutlineLine

private theorem toList_join_cons (l : OutlineLine) (ls : List OutlineLine) :
    (join (l :: ls)).toList =
      (List.replicate (2 * l.level) ' ' ++ l.text.toList) ++ '\n' :: (join ls).toList := by
  simp [join, indentation, String.join_cons]

private theorem Plain.lineFeed_notMem {l : OutlineLine} (h : l.Plain) :
    '\n' ∉ List.replicate (2 * l.level) ' ' ++ l.text.toList :=
  List.not_mem_append (fun hmem ↦ absurd (List.eq_of_mem_replicate hmem) (by decide)) h.1

/-- Plain lines can be read off their text. -/
theorem join_inj {ls ks : List OutlineLine} (hls : ∀ l ∈ ls, l.Plain) (hks : ∀ k ∈ ks, k.Plain)
    (h : join ls = join ks) : ls = ks := by
  induction ls generalizing ks with
  | nil =>
    cases ks with
    | nil => rfl
    | cons k ks => exact absurd (congrArg String.toList h) (by simp [join])
  | cons l ls ih =>
    cases ks with
    | nil => exact absurd (congrArg String.toList h) (by simp [join])
    | cons k ks =>
      obtain ⟨hl, hls⟩ := List.forall_mem_cons.mp hls
      obtain ⟨hk, hks⟩ := List.forall_mem_cons.mp hks
      have hcut := congrArg String.toList h
      rw [toList_join_cons, toList_join_cons] at hcut
      obtain ⟨hline, hrest⟩ := cut_unique hl.lineFeed_notMem hk.lineFeed_notMem hcut
      obtain ⟨hlevel, htext⟩ := replicate_append_inj hl.2 hk.2 hline
      have hlk : l = k := by
        rw [OutlineLine.mk.injEq]
        exact ⟨Nat.eq_of_mul_eq_mul_left (by decide) hlevel, String.toList_inj.mp htext⟩
      rw [hlk, ih hls hks (String.toList_inj.mp hrest)]

end OutlineLine

/-! ## Labels -/

/-- What stands in front of the name, the operator or the value on a line. -/
private def outlineLabels : List String :=
  ["Variable: ", "Value: ", "Unary: ", "Binary: ", "Declaration: INTEGER ", "Declaration: BOOLEAN "]

/-- No label starts another one, so a line has only one. -/
private theorem outlineLabel_inj {p q a b : String} (hp : p ∈ outlineLabels)
    (hq : q ∈ outlineLabels) (h : p ++ a = q ++ b) : p = q ∧ a = b := by
  have hall : ∀ p ∈ outlineLabels, ∀ q ∈ outlineLabels, p.toList <+: q.toList → p = q := by
    decide +kernel
  have heq := congrArg String.toList h
  rw [String.toList_append, String.toList_append] at heq
  have hpq : p = q := by
    rcases List.prefix_or_prefix_of_prefix ⟨a.toList, heq⟩ ⟨b.toList, rfl⟩ with hpre | hpre
    · exact hall p hp q hq hpre
    · exact (hall q hq p hp hpre).symm
  subst hpq
  exact ⟨rfl, String.toList_inj.mp (List.append_cancel_left heq)⟩

private theorem plain_of_outlineLabel {p a : String} (hp : p ∈ outlineLabels) (ha : '\n' ∉ a.toList)
    (level : Nat) : (OutlineLine.mk level (p ++ a)).Plain := by
  have hall : ∀ p ∈ outlineLabels, '\n' ∉ p.toList ∧ p.toList.head?.any (· != ' ') = true := by
    decide +kernel
  obtain ⟨hfeed, hhead⟩ := hall p hp
  obtain ⟨c, hc, hblank⟩ := (Option.any_eq_true _ _).mp hhead
  refine ⟨?_, ?_⟩
  · rw [String.toList_append]
    exact List.not_mem_append hfeed ha
  · rw [String.toList_append, List.head?_append, hc]
    exact fun h ↦ bne_iff_ne.mp hblank (Option.some.inj h)

/-- The lines that are the same in every tree. -/
private def outlineKeywords : List String :=
  ["Skip", "Assignment", "Conditional", "Loop", "Block", "Else", "Program", "Declarations"]

private theorem plain_of_outlineKeyword {k : String} (hk : k ∈ outlineKeywords) (level : Nat) :
    (OutlineLine.mk level k).Plain := by
  have hall : ∀ k ∈ outlineKeywords, '\n' ∉ k.toList ∧ k.toList.head? ≠ some ' ' := by
    decide +kernel
  exact hall k hk

/-! ## Values -/

theorem Value.lineFeed_notMem_text (v : Value) : '\n' ∉ v.text.toList := by
  rcases v with n | b
  · rw [Value.text, Decimal.text, String.toList_ofList]
    exact Decimal.notMem_ofInt (by decide) (by decide) _
  · cases b <;> decide

/-- No truth value is a numeral. -/
private theorem boolText_ne_text (b : Bool) (n : Int) : boolText b ≠ Decimal.text n := by
  intro h
  have he : 'e' ∈ (boolText b).toList := by cases b <;> decide
  rw [h, Decimal.text, String.toList_ofList] at he
  exact Decimal.notMem_ofInt (by decide) (by decide) n he

/-- A value can be read off its text. -/
theorem Value.text_injective : Function.Injective Value.text := by
  rintro (m | b) (n | c) h
  · rw [Int32.toInt_inj.mp (Decimal.ofInt_injective (String.ofList_injective h))]
  · exact absurd h.symm (boolText_ne_text c _)
  · exact absurd h (boolText_ne_text b _)
  · revert h
    cases b <;> cases c <;> decide

/-! ## Expressions -/

namespace Expression

/-- The label of an expression. -/
def outlineLabel : Expression → String
  | .variable _ => "Variable: "
  | .value _ => "Value: "
  | .unary _ _ => "Unary: "
  | .binary _ _ _ => "Binary: "

/-- What stands behind the label. -/
def outlineEntry : Expression → String
  | .variable v => v.name
  | .value v => v.text
  | .unary op _ => op.lexeme
  | .binary op _ _ => op.lexeme

/-- The lines of the operands. -/
def operandLines : Expression → Nat → List OutlineLine
  | .variable _, _ | .value _, _ => []
  | .unary _ operand, level => operand.outlineLines level
  | .binary _ left right, level => left.outlineLines level ++ right.outlineLines level

private theorem outlineLines_eq (e : Expression) (level : Nat) : e.outlineLines level =
    ⟨level, e.outlineLabel ++ e.outlineEntry⟩ :: e.operandLines (level + 1) := by
  cases e <;> rfl

private theorem outlineLabel_mem (e : Expression) : e.outlineLabel ∈ outlineLabels := by
  cases e <;> simp [outlineLabel, outlineLabels]

/-- The first line of an expression says what it is, and its operands follow. -/
private theorem operandLines_inj {e f : Expression} {level : Nat} {rest rest' : List OutlineLine}
    (h : e.outlineLines level ++ rest = f.outlineLines level ++ rest') :
    e.outlineLabel = f.outlineLabel ∧ e.outlineEntry = f.outlineEntry ∧
      e.operandLines (level + 1) ++ rest = f.operandLines (level + 1) ++ rest' := by
  rw [outlineLines_eq, outlineLines_eq, List.cons_append, List.cons_append, List.cons.injEq,
    OutlineLine.mk.injEq] at h
  obtain ⟨⟨-, htext⟩, hrest⟩ := h
  obtain ⟨hlabel, hentry⟩ := outlineLabel_inj e.outlineLabel_mem f.outlineLabel_mem htext
  exact ⟨hlabel, hentry, hrest⟩

/-- The lines of an expression say where they end. -/
theorem outlineLines_inj {e f : Expression} {level : Nat} {rest rest' : List OutlineLine}
    (h : e.outlineLines level ++ rest = f.outlineLines level ++ rest') : e = f ∧ rest = rest' := by
  induction e generalizing f level rest rest' with
  | «variable» v =>
    obtain ⟨hlabel, hentry, hrest⟩ := operandLines_inj h
    cases f with
    | «variable» u =>
      have hv : v = u := congrArg Variable.mk hentry
      exact ⟨congrArg «variable» hv, hrest⟩
    | value | unary | binary => exact absurd hlabel (by simp [outlineLabel])
  | value v =>
    obtain ⟨hlabel, hentry, hrest⟩ := operandLines_inj h
    cases f with
    | value u => exact ⟨congrArg value (Value.text_injective hentry), hrest⟩
    | «variable» | unary | binary => exact absurd hlabel (by simp [outlineLabel])
  | unary op operand ih =>
    obtain ⟨hlabel, hentry, hrest⟩ := operandLines_inj h
    cases f with
    | unary op' operand' =>
      have hop : op = op' := congrArg Operator.mk hentry
      obtain ⟨rfl, hrest'⟩ := ih hrest
      exact ⟨hop ▸ rfl, hrest'⟩
    | «variable» | value | binary => exact absurd hlabel (by simp [outlineLabel])
  | binary op left right ihl ihr =>
    obtain ⟨hlabel, hentry, hrest⟩ := operandLines_inj h
    cases f with
    | binary op' left' right' =>
      have hop : op = op' := congrArg Operator.mk hentry
      rw [operandLines, operandLines, List.append_assoc, List.append_assoc] at hrest
      obtain ⟨rfl, hright⟩ := ihl hrest
      obtain ⟨rfl, hrest'⟩ := ihr hright
      exact ⟨hop ▸ rfl, hrest'⟩
    | «variable» | value | unary => exact absurd hlabel (by simp [outlineLabel])

end Expression

/-! ## Statements -/

/-- What can stand below a statement at a level: nothing deeper, and no `Else` of the statement. -/
def Follows (level : Nat) (rest : List OutlineLine) : Prop :=
  ∀ l ∈ rest.head?, l.level ≤ level ∧ l ≠ ⟨level, "Else"⟩

/-- What can stand below the members of a block. -/
def EndsMembers (level : Nat) (rest : List OutlineLine) : Prop :=
  ∀ l ∈ rest.head?, l.level < level

private theorem Follows.endsMembers {level : Nat} {rest : List OutlineLine}
    (h : Follows level rest) :
    EndsMembers (level + 1) rest := fun l hl ↦ Nat.lt_succ_of_le (h l hl).1

private theorem EndsMembers.follows {level : Nat} {rest : List OutlineLine}
    (h : EndsMembers level rest) :
    Follows level rest := fun l hl ↦
  ⟨Nat.le_of_lt (h l hl), fun heq ↦ Nat.ne_of_lt (h l hl) (congrArg OutlineLine.level heq)⟩

namespace Statement

/-- What the first line of a statement says. -/
def outlineKeyword : Statement → String
  | skip => "Skip"
  | assignment _ _ => "Assignment"
  | conditional _ _ _ => "Conditional"
  | loop _ _ => "Loop"
  | block _ => "Block"

/-- The lines of the branch behind an `Else`, with the line of the `Else`. -/
def elseLines : Option Statement → Nat → List OutlineLine
  | none, _ => []
  | some e, level => ⟨level, "Else"⟩ :: e.outlineLines (level + 1)

/-- The lines of a statement behind the first one. -/
def partLines : Statement → Nat → List OutlineLine
  | skip, _ => []
  | assignment target source, level =>
    (Expression.variable target).outlineLines (level + 1) ++ source.outlineLines (level + 1)
  | conditional test thenBranch elseBranch, level =>
    test.outlineLines (level + 1) ++ (thenBranch.outlineLines (level + 1) ++
      elseLines elseBranch level)
  | loop test body, level => test.outlineLines (level + 1) ++ body.outlineLines (level + 1)
  | block members, level => membersOutline members (level + 1)

private theorem outlineLines_eq (s : Statement) (level : Nat) :
    s.outlineLines level = ⟨level, s.outlineKeyword⟩ :: s.partLines level := by
  cases s with
  | conditional test thenBranch elseBranch =>
    cases elseBranch with
    | none => rw [partLines, elseLines, List.append_nil]; rfl
    | some e => rw [partLines, ← List.append_assoc]; rfl
  | skip | assignment | loop | block => rfl

/-- The first line of a statement says what it is, and its parts follow. -/
private theorem partLines_inj {s t : Statement} {level : Nat} {rest rest' : List OutlineLine}
    (h : s.outlineLines level ++ rest = t.outlineLines level ++ rest') :
    s.outlineKeyword = t.outlineKeyword ∧
      s.partLines level ++ rest = t.partLines level ++ rest' := by
  rw [outlineLines_eq, outlineLines_eq, List.cons_append, List.cons_append, List.cons.injEq,
    OutlineLine.mk.injEq] at h
  exact ⟨h.1.2, h.2⟩

private theorem outlineKeyword_ne_else (s : Statement) : s.outlineKeyword ≠ "Else" := by
  cases s <;> simp [outlineKeyword]

/-- Whether the lines of a statement say what it is and where they end. -/
private def Legible (s : Statement) : Prop :=
  ∀ ⦃t : Statement⦄ ⦃level : Nat⦄ ⦃rest rest' : List OutlineLine⦄, Follows level rest →
    Follows level rest' → s.outlineLines level ++ rest = t.outlineLines level ++ rest' →
    s = t ∧ rest = rest'

private theorem follows_membersOutline {members : List Statement} {level : Nat}
    {rest : List OutlineLine} (h : EndsMembers level rest) :
    Follows level (membersOutline members level ++ rest) := by
  cases members with
  | nil => exact h.follows
  | cons m ms =>
    intro l hl
    rw [membersOutline, outlineLines_eq] at hl
    obtain rfl := Option.some.inj hl
    exact ⟨Nat.le_refl level, fun heq ↦ m.outlineKeyword_ne_else (OutlineLine.mk.inj heq).2⟩

private theorem membersOutline_inj {ms ms' : List Statement} (ih : ∀ m ∈ ms, m.Legible)
    {level : Nat} {rest rest' : List OutlineLine} (hrest : EndsMembers level rest)
    (hrest' : EndsMembers level rest')
    (h : membersOutline ms level ++ rest = membersOutline ms' level ++ rest') :
    ms = ms' ∧ rest = rest' := by
  induction ms generalizing ms' with
  | nil =>
    cases ms' with
    | nil => exact ⟨rfl, h⟩
    | cons m ms =>
      rw [membersOutline, membersOutline, outlineLines_eq] at h
      obtain rfl : rest = _ := h
      exact absurd (hrest _ rfl) (Nat.lt_irrefl level)
  | cons m ms ihms =>
    cases ms' with
    | nil =>
      rw [membersOutline, membersOutline, outlineLines_eq] at h
      obtain rfl : _ = rest' := h
      exact absurd (hrest' _ rfl) (Nat.lt_irrefl level)
    | cons m' ms' =>
      obtain ⟨hm, hms⟩ := List.forall_mem_cons.mp ih
      rw [membersOutline, membersOutline, List.append_assoc, List.append_assoc] at h
      obtain ⟨rfl, hmembers⟩ :=
        hm (follows_membersOutline hrest) (follows_membersOutline hrest') h
      obtain ⟨rfl, hend⟩ := ihms hms hmembers
      exact ⟨rfl, hend⟩

private theorem endsMembers_elseLines {level : Nat} {rest : List OutlineLine}
    (h : Follows level rest) (branch : Option Statement) :
    EndsMembers (level + 1) (elseLines branch level ++ rest) := by
  cases branch with
  | none => exact h.endsMembers
  | some e =>
    intro l hl
    obtain rfl := Option.some.inj hl
    exact Nat.lt_succ_self level

private theorem elseLines_inj {branch branch' : Option Statement} (ih : ∀ e ∈ branch, e.Legible)
    {level : Nat} {rest rest' : List OutlineLine} (hrest : Follows level rest)
    (hrest' : Follows level rest')
    (h : elseLines branch level ++ rest = elseLines branch' level ++ rest') :
    branch = branch' ∧ rest = rest' := by
  cases branch with
  | none =>
    cases branch' with
    | none => exact ⟨rfl, h⟩
    | some e =>
      obtain rfl : rest = _ := h
      exact absurd rfl (hrest _ rfl).2
  | some e =>
    cases branch' with
    | none =>
      obtain rfl : _ = rest' := h
      exact absurd rfl (hrest' _ rfl).2
    | some e' =>
      obtain ⟨rfl, hend⟩ := ih e rfl hrest.endsMembers.follows hrest'.endsMembers.follows
        (List.cons.inj h).2
      exact ⟨rfl, hend⟩

/-- The lines of a statement say where they end, as far as what stands below allows. -/
private theorem legible (s : Statement) : s.Legible := by
  induction s using Statement.inductionOn with
  | skip =>
    intro t level rest rest' hrest hrest' h
    obtain ⟨hkeyword, hparts⟩ := partLines_inj h
    cases t with
    | skip => exact ⟨rfl, hparts⟩
    | assignment | conditional | loop | block =>
      exact absurd hkeyword (by simp [outlineKeyword])
  | assignment target source =>
    intro t level rest rest' hrest hrest' h
    obtain ⟨hkeyword, hparts⟩ := partLines_inj h
    cases t with
    | assignment target' source' =>
      rw [partLines, partLines, List.append_assoc, List.append_assoc] at hparts
      obtain ⟨htarget, hsource⟩ := Expression.outlineLines_inj hparts
      obtain ⟨rfl, hend⟩ := Expression.outlineLines_inj hsource
      exact ⟨Expression.variable.inj htarget ▸ rfl, hend⟩
    | skip | conditional | loop | block => exact absurd hkeyword (by simp [outlineKeyword])
  | conditional test thenBranch elseBranch iht ihe =>
    intro t level rest rest' hrest hrest' h
    obtain ⟨hkeyword, hparts⟩ := partLines_inj h
    cases t with
    | conditional test' thenBranch' elseBranch' =>
      simp only [partLines, List.append_assoc] at hparts
      obtain ⟨rfl, hbranches⟩ := Expression.outlineLines_inj hparts
      obtain ⟨rfl, helse⟩ := iht (endsMembers_elseLines hrest _).follows
        (endsMembers_elseLines hrest' _).follows hbranches
      obtain ⟨rfl, hend⟩ := elseLines_inj ihe hrest hrest' helse
      exact ⟨rfl, hend⟩
    | skip | assignment | loop | block => exact absurd hkeyword (by simp [outlineKeyword])
  | loop test body ih =>
    intro t level rest rest' hrest hrest' h
    obtain ⟨hkeyword, hparts⟩ := partLines_inj h
    cases t with
    | loop test' body' =>
      rw [partLines, partLines, List.append_assoc, List.append_assoc] at hparts
      obtain ⟨rfl, hbody⟩ := Expression.outlineLines_inj hparts
      obtain ⟨rfl, hend⟩ := ih hrest.endsMembers.follows hrest'.endsMembers.follows hbody
      exact ⟨rfl, hend⟩
    | skip | assignment | conditional | block => exact absurd hkeyword (by simp [outlineKeyword])
  | block members ih =>
    intro t level rest rest' hrest hrest' h
    obtain ⟨hkeyword, hparts⟩ := partLines_inj h
    cases t with
    | block members' =>
      obtain ⟨rfl, hend⟩ := membersOutline_inj ih hrest.endsMembers hrest'.endsMembers hparts
      exact ⟨rfl, hend⟩
    | skip | assignment | conditional | loop => exact absurd hkeyword (by simp [outlineKeyword])

end Statement

/-! ## Declarations and programs -/

private theorem Declaration.outlineLabel_mem (d : Declaration) :
    "Declaration: " ++ d.ty.name ++ " " ∈ outlineLabels := by
  cases d.ty <;> decide

private theorem Declaration.outlineLine_inj {d d' : Declaration} {level : Nat}
    (h : d.outlineLine level = d'.outlineLine level) : d = d' := by
  obtain ⟨hty, hname⟩ :=
    outlineLabel_inj d.outlineLabel_mem d'.outlineLabel_mem (OutlineLine.mk.inj h).2
  have htype : d.ty = d'.ty := by
    revert hty
    cases d.ty <;> cases d'.ty <;> decide
  rw [Declaration.mk.injEq, Variable.mk.injEq]
  exact ⟨htype, hname⟩

/-- The lines of declarations end where a line of another level stands. -/
private theorem declarationLines_inj {ds ds' : List Declaration} {level : Nat}
    {rest rest' : List OutlineLine} (hrest : EndsMembers level rest)
    (hrest' : EndsMembers level rest')
    (h : ds.map (·.outlineLine level) ++ rest = ds'.map (·.outlineLine level) ++ rest') :
    ds = ds' ∧ rest = rest' := by
  induction ds generalizing ds' with
  | nil =>
    cases ds' with
    | nil => exact ⟨rfl, h⟩
    | cons d' ds' =>
      obtain rfl : rest = _ := h
      exact absurd (hrest _ rfl) (Nat.lt_irrefl level)
  | cons d ds ih =>
    cases ds' with
    | nil =>
      obtain rfl : _ = rest' := h
      exact absurd (hrest' _ rfl) (Nat.lt_irrefl level)
    | cons d' ds' =>
      obtain ⟨hline, hlines⟩ := List.cons.inj h
      obtain ⟨rfl, hend⟩ := ih hlines
      exact ⟨Declaration.outlineLine_inj hline ▸ rfl, hend⟩

/-- The lines of a program determine it. -/
theorem Program.outlineLines_inj {p q : Program} (h : p.outlineLines = q.outlineLines) : p = q := by
  have hblock (ms : List Statement) : EndsMembers 2 ((Statement.block ms).outlineLines 1) := by
    intro l hl
    rw [Statement.outlineLines_eq] at hl
    obtain rfl := Option.some.inj hl
    exact Nat.lt_succ_self 1
  obtain ⟨hdecls, hbody⟩ :=
    declarationLines_inj (hblock _) (hblock _) (List.cons.inj (List.cons.inj h).2).2
  have hfollows : Follows 1 [] := nofun
  obtain ⟨hmembers, -⟩ := (Statement.block p.body.members).legible hfollows hfollows
    ((List.append_nil _).trans (hbody.trans (List.append_nil _).symm))
  rw [Program.mk.injEq, Block.mk.injEq]
  exact ⟨hdecls, Statement.block.inj hmembers⟩

/-! ## Single-line names and operators -/

/-- A tree none of whose names and operators goes over the end of its line. -/
def Vocabulary.singleLine : Vocabulary where
  name n := '\n' ∉ n.toList
  unary op := '\n' ∉ op.toList
  binary op := '\n' ∉ op.toList
  integer _ := True

private theorem Expression.Over.plain {e : Expression} (h : e.Over .singleLine) (level : Nat) :
    ∀ l ∈ e.outlineLines level, l.Plain := by
  induction e generalizing level with
  | «variable» v =>
    exact List.forall_mem_singleton.mpr (plain_of_outlineLabel (by decide) h level)
  | value v =>
    exact List.forall_mem_singleton.mpr
      (plain_of_outlineLabel (by decide) v.lineFeed_notMem_text level)
  | unary op operand ih =>
    obtain ⟨hop, hoperand⟩ := h
    exact List.forall_mem_cons.mpr
      ⟨plain_of_outlineLabel (by decide) hop level, ih hoperand (level + 1)⟩
  | binary op left right ihl ihr =>
    obtain ⟨hop, hleft, hright⟩ := h
    exact List.forall_mem_cons.mpr ⟨plain_of_outlineLabel (by decide) hop level,
      List.forall_mem_append.mpr ⟨ihl hleft (level + 1), ihr hright (level + 1)⟩⟩

namespace Statement

mutual

private theorem Over.plain :
    ∀ {s : Statement}, s.Over .singleLine → ∀ level, ∀ l ∈ s.outlineLines level,
    l.Plain
  | skip, _, level => List.forall_mem_singleton.mpr (plain_of_outlineKeyword (by decide) level)
  | assignment _ _, ⟨htarget, hsource⟩, level => List.forall_mem_cons.mpr
    ⟨plain_of_outlineKeyword (by decide) level, List.forall_mem_cons.mpr
      ⟨plain_of_outlineLabel (by decide) htarget (level + 1), hsource.plain (level + 1)⟩⟩
  | conditional _ _ none, ⟨htest, ht⟩, level => List.forall_mem_cons.mpr
    ⟨plain_of_outlineKeyword (by decide) level, List.forall_mem_append.mpr
      ⟨htest.plain (level + 1), Over.plain ht (level + 1)⟩⟩
  | conditional _ _ (some _), ⟨htest, ht, he⟩, level => List.forall_mem_cons.mpr
    ⟨plain_of_outlineKeyword (by decide) level, List.forall_mem_append.mpr
      ⟨List.forall_mem_append.mpr ⟨htest.plain (level + 1), Over.plain ht (level + 1)⟩,
        List.forall_mem_cons.mpr
          ⟨plain_of_outlineKeyword (by decide) level, Over.plain he (level + 1)⟩⟩⟩
  | loop _ _, ⟨htest, hbody⟩, level => List.forall_mem_cons.mpr
    ⟨plain_of_outlineKeyword (by decide) level, List.forall_mem_append.mpr
      ⟨htest.plain (level + 1), Over.plain hbody (level + 1)⟩⟩
  | block _, h, level => List.forall_mem_cons.mpr
    ⟨plain_of_outlineKeyword (by decide) level, MembersOver.plain h (level + 1)⟩

private theorem MembersOver.plain : ∀ {ms}, MembersOver .singleLine ms → ∀ level,
    ∀ l ∈ membersOutline ms level, l.Plain
  | [], _, _ => nofun
  | _ :: _, ⟨hm, hms⟩, level =>
    List.forall_mem_append.mpr ⟨Over.plain hm level, MembersOver.plain hms level⟩

end

end Statement

private theorem Program.Over.plain {p : Program} (h : p.Over .singleLine) :
    ∀ l ∈ p.outlineLines, l.Plain := by
  have hdecls : ∀ l ∈ p.declarations.map (·.outlineLine 2), l.Plain := by
    refine List.forall_mem_map.mpr fun d hd ↦ ?_
    exact plain_of_outlineLabel d.outlineLabel_mem (h.1 d hd) 2
  have hbody : (Statement.block p.body.members).Over .singleLine := h.2
  exact List.forall_mem_cons.mpr ⟨plain_of_outlineKeyword (by decide) 0,
    List.forall_mem_cons.mpr ⟨plain_of_outlineKeyword (by decide) 1,
      List.forall_mem_append.mpr ⟨hdecls, hbody.plain 1⟩⟩⟩

/-- **The outline determines the tree.** Two programs with the same outline are the same, and so are
two expressions, if their names and operators stay on one line. -/
theorem outline_eq_iff :
    (∀ p q : Program, p.Over .singleLine → q.Over .singleLine → (p.outline = q.outline ↔ p = q)) ∧
      ∀ e f : Expression, e.Over .singleLine → f.Over .singleLine →
        (e.outline = f.outline ↔ e = f) := by
  constructor
  · intro p q hp hq
    refine ⟨fun h ↦ ?_, congrArg Program.outline⟩
    exact Program.outlineLines_inj (OutlineLine.join_inj hp.plain hq.plain h)
  · intro e f he hf
    refine ⟨fun h ↦ ?_, congrArg Expression.outline⟩
    have hlines := OutlineLine.join_inj (he.plain 0) (hf.plain 0) h
    exact (Expression.outlineLines_inj (congrArg (· ++ []) hlines)).1

/-- To which conditional an `else` belongs, and how differences are grouped, shows in the levels
alone. -/
theorem outline_ne_of_levels :
    Program.outline ⟨[], ⟨[.conditional (.variable ⟨"a"⟩)
        (.conditional (.variable ⟨"b"⟩) .skip (some .skip)) none]⟩⟩ ≠
      Program.outline ⟨[], ⟨[.conditional (.variable ⟨"a"⟩)
        (.conditional (.variable ⟨"b"⟩) .skip none) (some .skip)]⟩⟩ ∧
    Expression.outline (.binary ⟨"-"⟩ (.binary ⟨"-"⟩ (.variable ⟨"a"⟩) (.variable ⟨"b"⟩))
        (.variable ⟨"a"⟩)) ≠
      Expression.outline (.binary ⟨"-"⟩ (.variable ⟨"a"⟩)
        (.binary ⟨"-"⟩ (.variable ⟨"b"⟩) (.variable ⟨"a"⟩))) := by
  have ha : '\n' ∉ "a".toList := by decide
  have hb : '\n' ∉ "b".toList := by decide
  have hminus : '\n' ∉ "-".toList := by decide
  constructor
  · refine (not_congr (outline_eq_iff.1 _ _ ?_ ?_)).mpr (by decide)
    · exact ⟨nofun, ⟨ha, hb, trivial, trivial⟩, trivial⟩
    · exact ⟨nofun, ⟨ha, ⟨hb, trivial⟩, trivial⟩, trivial⟩
  · refine (not_congr (outline_eq_iff.2 _ _ ?_ ?_)).mpr (by decide)
    · exact ⟨hminus, ⟨hminus, ha, hb⟩, ha⟩
    · exact ⟨hminus, ha, hminus, hb, ha⟩

end Kay
