import Kay.Proofs.Json.Forms
import Mathlib.Data.Option.Basic

/-!
# The JSON forms of programs

For every kind of node the forms of its values (`IsForm`), by recursion on the value, and that the
reader takes exactly these: it gives a value if and only if what it reads is one of the forms of
that value. That what is written is read back, and that different values are written differently,
follows, because what is written is one of the forms.

The forms of a conditional depend on the forms of its branches. They are given in terms of these
(`Conditional.formOf`), once for the statement and for the record of its parts. A second branch that
is missing may be null or left out of an object. No statement has null as one of its forms, which
is what keeps a missing branch apart from any branch that is there.
-/

namespace Kay

open Json

/-! ## Names, types and values -/

/-- The forms of a variable. -/
def Variable.IsForm (v : Variable) : Json → Prop :=
  IsRecord [.always "name" (· = .string v.name)]

/-- The forms of a type. -/
def VarType.IsForm : VarType → Json → Prop
  | integer => IsUnit "Integer"
  | boolean => IsUnit "Boolean"

/-- The forms of a literal value. -/
def Value.IsForm : Value → Json → Prop
  | integer n => IsVariant "Integer" (· = .integer n.toInt)
  | boolean b => IsVariant "Boolean" (· = .boolean b)

/-- The forms of an operator. -/
def Operator.IsForm (op : Operator) (j : Json) : Prop := j = .string op.lexeme

theorem Json.string?_eq_some_iff {j : Json} {s : String} : j.string? = some s ↔ j = .string s := by
  cases j <;> simp [string?]

private theorem Json.isNull_iff {j : Json} :
    j.isNull = true ↔ j = .null := by cases j <;> simp [isNull]

theorem Variable.ofJson?_eq_some_iff {v : Variable} {j : Json} :
    ofJson? j = some v ↔ v.IsForm j := by
  rw [IsForm, isRecord_iff (forall₂_readAs (by simp)), ofJson?]
  split
  · next name hj =>
    obtain ⟨word⟩ := v
    simp [hj, string?_eq_some_iff]
  · next hj => simp_all [List.forall₂_cons_left_iff]

private theorem Variable.not_isForm_null (v : Variable) : ¬ v.IsForm .null := not_isRecord_null

theorem VarType.ofJson?_eq_some_iff {ty : VarType} {j : Json} :
    ofJson? j = some ty ↔ ty.IsForm j := by
  rw [ofJson?.eq_def]
  cases ty
  all_goals
    rw [IsForm, isUnit_iff]
    split
    · next name hj => split_ifs <;> simp_all
    · simp_all

theorem Json.int32?_eq_some_iff {j : Json} {n : Int32} :
    j.int32? = some n ↔ j = .integer n.toInt := by
  rw [int32?.eq_def]
  split
  · next m =>
    have hle : Int32.minValue.toInt ≤ n.toInt ∧ n.toInt ≤ Int32.maxValue.toInt :=
      ⟨Int32.minValue_le_toInt n, Int32.toInt_le n⟩
    split_ifs with hm
    · have hmod : (Int32.ofInt m).toInt = m :=
        Int32.toInt_ofInt_of_le hm.1 (Int.lt_add_one_of_le hm.2)
      constructor
      · rintro h
        rw [← Option.some.inj h, hmod]
      · rintro h
        rw [Json.integer.inj h, Int32.ofInt_toInt]
    · simp only [Json.integer.injEq, false_iff]
      rintro rfl
      exact hm hle
  · simp_all

theorem Value.ofJson?_eq_some_iff {v : Value} {j : Json} : ofJson? j = some v ↔ v.IsForm j := by
  rw [ofJson?.eq_def]
  cases v
  all_goals
    rw [IsForm, isVariant_iff (by simp)]
    split
    · next name c hj =>
      split_ifs
      · simp_all [int32?_eq_some_iff]
      · cases c <;> simp_all
      · simp_all
    · next hj => simp [hj]

private theorem Value.not_isForm_null (v : Value) : ¬ v.IsForm .null := by
  cases v <;> simp [IsForm]

theorem Operator.ofJson?_eq_some_iff {op : Operator} {j : Json} :
    ofJson? j = some op ↔ op.IsForm j := by
  obtain ⟨lexeme⟩ := op
  simp [ofJson?, IsForm, string?_eq_some_iff]

/-! ## Places -/

/-- The form of an offset, which has to be a word of 64 bits. -/
def IsOffset (n : Nat) (j : Json) : Prop := n < UInt64.size ∧ j = .integer n

/-- The forms of a span. -/
def Span.IsForm (s : Span) : Json → Prop :=
  IsRecord [.always "start" (IsOffset s.start), .always "end" (IsOffset s.stop)]

theorem Json.offset?_eq_some_iff {j : Json} {n : Nat} : j.offset? = some n ↔ IsOffset n j := by
  rw [offset?.eq_def, IsOffset]
  split
  · next m =>
    split_ifs with hm
    · obtain ⟨k, rfl⟩ := Int.eq_ofNat_of_zero_le hm.1
      simp_all
      grind
    · simp only [Json.integer.injEq, false_iff, not_and]
      rintro hn rfl
      exact hm ⟨Int.natCast_nonneg n, hn⟩
  · simp_all

theorem Span.ofJson?_eq_some_iff {s : Span} {j : Json} : ofJson? j = some s ↔ s.IsForm j := by
  rw [IsForm, isRecord_iff (forall₂_readAs (by simp)), ofJson?]
  obtain ⟨start, stop⟩ := s
  split
  · next first last hj => simp [hj, offset?_eq_some_iff, Option.bind_eq_some_iff]
  · next hj => simp_all [List.forall₂_cons_left_iff]

/-! ## Expressions -/

/-- The forms of an expression. What the two operations hold is an object, never an array. -/
def Expression.IsForm : Expression → Json → Prop
  | .variable v => IsVariant "Variable" v.IsForm
  | .value v => IsVariant "Value" v.IsForm
  | .unary op operand => IsVariant "Unary" (IsObject
      [.always "op" op.IsForm, .always "operand" operand.IsForm])
  | .binary op left right => IsVariant "Binary" (IsObject
      [.always "op" op.IsForm, .always "left" left.IsForm, .always "right" right.IsForm])

/-- The name that an expression's forms are given under. -/
def Expression.formName : Expression → String
  | .variable _ => "Variable"
  | .value _ => "Value"
  | .unary _ _ => "Unary"
  | .binary _ _ _ => "Binary"

namespace Expression

variable {j c : Json}

private theorem ofJson?_of_variable (h : j.variant? = some ("Variable", c)) :
    ofJson? j = (Variable.ofJson? c).map .variable := by
  rw [ofJson?]
  split <;> simp_all

private theorem ofJson?_of_value (h : j.variant? = some ("Value", c)) :
    ofJson? j = (Value.ofJson? c).map .value := by
  rw [ofJson?]
  split <;> simp_all

private theorem ofJson?_of_unary (h : j.variant? = some ("Unary", c)) :
    ofJson? j = match c.fields? [required "op", required "operand"] with
      | some [op, operand] => do
        let op ← Operator.ofJson? op
        let operand ← ofJson? operand
        pure (.unary op operand)
      | _ => none := by
  rw [ofJson?]
  split
  · next hj =>
    cases hj.symm.trans h
    simp only [reduceIte, String.reduceEq]
    split <;> simp_all
  · simp_all

private theorem ofJson?_of_binary (h : j.variant? = some ("Binary", c)) :
    ofJson? j = match c.fields? [required "op", required "left", required "right"] with
      | some [op, left, right] => do
        let op ← Operator.ofJson? op
        let left ← ofJson? left
        let right ← ofJson? right
        pure (.binary op left right)
      | _ => none := by
  rw [ofJson?]
  split
  · next hj =>
    cases hj.symm.trans h
    simp only [reduceIte, String.reduceEq]
    split <;> simp_all
  · simp_all

private theorem variant?_of_ofJson? {e : Expression} (h : ofJson? j = some e) :
    ∃ c, j.variant? = some (e.formName, c) := by
  rw [ofJson?] at h
  split at h
  · next name c hj =>
    refine ⟨c, hj.trans ?_⟩
    split_ifs at h with hname hname hname hname
    · obtain ⟨v, -, rfl⟩ := Option.map_eq_some_iff.mp h
      rw [hname, formName]
    · obtain ⟨v, -, rfl⟩ := Option.map_eq_some_iff.mp h
      rw [hname, formName]
    · split at h
      · simp only [Option.bind_eq_bind, Option.bind_eq_some_iff] at h
        obtain ⟨op, -, operand, -, h⟩ := h
        cases h
        rw [hname, formName]
      · cases h
    · split at h
      · simp only [Option.bind_eq_bind, Option.bind_eq_some_iff] at h
        obtain ⟨op, -, left, -, right, -, h⟩ := h
        cases h
        rw [hname, formName]
      · cases h
  · cases h

theorem ofJson?_eq_some_iff {e : Expression} : ofJson? j = some e ↔ e.IsForm j := by
  induction e generalizing j with
  | «variable» v =>
    refine read_iff_isVariant v.not_isForm_null (fun _ ↦ variant?_of_ofJson?) (fun j c h ↦ ?_) j
    simp [ofJson?_of_variable h, Variable.ofJson?_eq_some_iff]
  | value v =>
    refine read_iff_isVariant v.not_isForm_null (fun _ ↦ variant?_of_ofJson?) (fun j c h ↦ ?_) j
    simp [ofJson?_of_value h, Value.ofJson?_eq_some_iff]
  | unary op operand ih =>
    refine read_iff_isVariant not_isObject_null (fun _ ↦ variant?_of_ofJson?) (fun j c h ↦ ?_) j
    rw [ofJson?_of_unary h, isObject_iff (forall₂_readAs (by simp))]
    split
    · next hc => simp [hc, Operator.ofJson?_eq_some_iff, ih, Option.bind_eq_some_iff]
    · simp_all [List.forall₂_cons_left_iff]
  | binary op left right ihl ihr =>
    refine read_iff_isVariant not_isObject_null (fun _ ↦ variant?_of_ofJson?) (fun j c h ↦ ?_) j
    rw [ofJson?_of_binary h, isObject_iff (forall₂_readAs (by simp))]
    split
    · next hc => simp [hc, Operator.ofJson?_eq_some_iff, ihl, ihr, Option.bind_eq_some_iff]
    · simp_all [List.forall₂_cons_left_iff]

end Expression

/-! ## Statements -/

/-- The forms of an assignment. -/
def Assignment.IsForm (a : Assignment) : Json → Prop :=
  IsRecord [.always "target" a.target.IsForm, .always "source" a.source.IsForm]

/-- The field of the second branch, of which the forms are given if there is one. -/
def Conditional.elseField : Option (Json → Prop) → FieldForm
  | none => ⟨"else_branch", (· = .null), true⟩
  | some elseForm => .always "else_branch" elseForm

/-- The forms of a conditional whose branches have the given forms. -/
def Conditional.formOf (test : Expression) (thenForm : Json → Prop)
    (elseForm : Option (Json → Prop)) : Json → Prop :=
  IsRecord [.always "test" test.IsForm, .always "then_branch" thenForm, elseField elseForm]

/-- The forms of a loop whose body has the given forms. -/
def Loop.formOf (test : Expression) (bodyForm : Json → Prop) : Json → Prop :=
  IsRecord [.always "test" test.IsForm, .always "body" bodyForm]

/-- The forms of a block whose members have the given forms. -/
def Block.formOf (memberForms : List (Json → Prop)) : Json → Prop :=
  IsRecord [.always "members" (IsArray memberForms)]

mutual

/-- The forms of a statement. -/
def Statement.IsForm : Statement → Json → Prop
  | .skip => IsUnit "Skip"
  | .assignment target source => IsVariant "Assignment" (Assignment.IsForm ⟨target, source⟩)
  | .conditional test thenBranch none =>
    IsVariant "Conditional" (Conditional.formOf test thenBranch.IsForm none)
  | .conditional test thenBranch (some elseBranch) =>
    IsVariant "Conditional" (Conditional.formOf test thenBranch.IsForm (some elseBranch.IsForm))
  | .loop test body => IsVariant "Loop" (Loop.formOf test body.IsForm)
  | .block members => IsVariant "Block" (Block.formOf (Statement.forms members))

/-- The forms of statements in sequence. -/
def Statement.forms : List Statement → List (Json → Prop)
  | [] => []
  | m :: ms => m.IsForm :: Statement.forms ms

end

/-- The forms of a conditional. -/
def Conditional.IsForm (c : Conditional) : Json → Prop :=
  formOf c.test c.thenBranch.IsForm (c.elseBranch.map Statement.IsForm)

/-- The forms of a loop. -/
def Loop.IsForm (l : Loop) : Json → Prop := formOf l.test l.body.IsForm

/-- The forms of a block. -/
def Block.IsForm (b : Block) : Json → Prop := formOf (b.members.map Statement.IsForm)

private theorem Conditional.not_isForm_null (c : Conditional) : ¬ c.IsForm .null := by
  simp [IsForm, formOf]

private theorem Loop.not_isForm_null (l : Loop) : ¬ l.IsForm .null := by
  simp [IsForm, formOf]

private theorem Block.not_isForm_null (b : Block) : ¬ b.IsForm .null := by
  simp [IsForm, formOf]

theorem Assignment.ofJson?_eq_some_iff {a : Assignment} {j : Json} :
    ofJson? j = some a ↔ a.IsForm j := by
  rw [IsForm, isRecord_iff (forall₂_readAs (by simp)), ofJson?]
  obtain ⟨target, source⟩ := a
  split
  · next hj =>
    simp [hj, Variable.ofJson?_eq_some_iff, Expression.ofJson?_eq_some_iff,
      Option.bind_eq_some_iff]
  · simp_all [List.forall₂_cons_left_iff]

namespace Statement

variable {j c : Json}

private theorem forms_eq_map (ms : List Statement) : forms ms = ms.map IsForm := by
  induction ms with
  | nil => rw [forms, List.map_nil]
  | cons m ms ih => rw [forms, List.map_cons, ih]

private theorem isForm_conditional (test : Expression) (t : Statement) (e : Option Statement) :
    (conditional test t e).IsForm =
      IsVariant "Conditional" (Conditional.IsForm ⟨test, t, e⟩) := by
  cases e <;> rw [IsForm, Conditional.IsForm] <;> rfl

private theorem isForm_loop (test : Expression) (body : Statement) :
    (loop test body).IsForm = IsVariant "Loop" (Loop.IsForm ⟨test, body⟩) := by
  rw [IsForm, Loop.IsForm]

private theorem isForm_block (ms : List Statement) :
    (block ms).IsForm = IsVariant "Block" (Block.IsForm ⟨ms⟩) := by
  rw [IsForm, Block.IsForm, forms_eq_map]

private theorem not_isForm_null (s : Statement) : ¬ s.IsForm .null := by
  cases s with
  | conditional test t e => simp [isForm_conditional]
  | _ => simp [IsForm]

/-- The name that a statement's forms are given under. -/
def formName : Statement → String
  | skip => "Skip"
  | assignment _ _ => "Assignment"
  | conditional _ _ _ => "Conditional"
  | loop _ _ => "Loop"
  | block _ => "Block"

private theorem ofJson?_of_skip (h : j.variant? = some ("Skip", c)) :
    ofJson? j = some .skip ↔ c = .null := by
  rw [ofJson?]
  split
  · next hj =>
    cases hj.symm.trans h
    cases c <;> simp
  · simp_all

private theorem ofJson?_of_assignment (h : j.variant? = some ("Assignment", c)) :
    ofJson? j = (Assignment.ofJson? c).map Assignment.toStatement := by
  rw [ofJson?]
  split <;> simp_all

private theorem ofJson?_of_conditional (h : j.variant? = some ("Conditional", c)) :
    ofJson? j = (Conditional.ofJson? c).map Conditional.toStatement := by
  rw [ofJson?]
  split <;> simp_all

private theorem ofJson?_of_loop (h : j.variant? = some ("Loop", c)) :
    ofJson? j = (Loop.ofJson? c).map Loop.toStatement := by
  rw [ofJson?]
  split <;> simp_all

private theorem ofJson?_of_block (h : j.variant? = some ("Block", c)) :
    ofJson? j = (Block.ofJson? c).map Block.toStatement := by
  rw [ofJson?]
  split <;> simp_all

private theorem variant?_of_ofJson? {s : Statement} (h : ofJson? j = some s) :
    ∃ c, j.variant? = some (s.formName, c) := by
  rw [ofJson?] at h
  split at h
  · next name c hj =>
    refine ⟨c, hj.trans ?_⟩
    split_ifs at h with hname hname hname hname hname
    · split at h
      · cases h
        rw [hname, formName]
      · cases h
    all_goals
      obtain ⟨parts, -, rfl⟩ := Option.map_eq_some_iff.mp h
      rw [hname]
      rfl
  · cases h

/-- Whether a statement is read from its forms and from nothing else. -/
private def ReadByForm (s : Statement) : Prop := ∀ j, ofJson? j = some s ↔ s.IsForm j

private theorem ofJsonAll?_eq_mapM (items : List Json) : ofJsonAll? items = items.mapM ofJson? := by
  induction items with
  | nil =>
    rw [ofJsonAll?]
    rfl
  | cons item items ih => rw [ofJsonAll?, List.mapM_cons, ih]

end Statement

/-- The field of the second branch is read as null where it is left out, which no statement has as
a form. -/
private theorem Conditional.readAs_elseField (e : Option Statement) :
    (elseField (e.map Statement.IsForm)).ReadAs ⟨"else_branch", true⟩ := by
  cases e with
  | none => exact ⟨rfl, by simp [elseField]⟩
  | some s => exact ⟨rfl, by simp [elseField, s.not_isForm_null]⟩

private theorem Conditional.ofJson?_iff_of_branches {c : Conditional}
    (hthen : c.thenBranch.ReadByForm) (helse : ∀ e ∈ c.elseBranch, e.ReadByForm) (j : Json) :
    ofJson? j = some c ↔ c.IsForm j := by
  obtain ⟨test, t, e⟩ := c
  rw [IsForm, formOf, isRecord_iff (.cons (FieldForm.readAs_always _ _)
    (.cons (FieldForm.readAs_always _ _) (.cons (readAs_elseField _) .nil))), ofJson?]
  split
  · next a b d hj =>
    have hj' : record? [required "test", required "then_branch", ⟨"else_branch", true⟩] j =
      some [a, b, d] := hj
    by_cases hd : d.isNull = true
    · obtain rfl := Json.isNull_iff.mp hd
      cases e with
      | none =>
        simp [hj', hd, hthen b, elseField, Option.bind_eq_some_iff,
          Expression.ofJson?_eq_some_iff]
      | some s => simp [hj', hd, elseField, s.not_isForm_null, Option.bind_eq_some_iff]
    · have hd' : d ≠ .null := fun h ↦ hd (Json.isNull_iff.mpr h)
      cases e with
      | none => simp [hj', hd, hd', elseField, Option.bind_eq_some_iff]
      | some s =>
        simp [hj', hd, hthen b, helse s rfl d, elseField, Option.bind_eq_some_iff,
          Expression.ofJson?_eq_some_iff]
  · next hj =>
    simp_all [List.forall₂_cons_left_iff, fieldNames]

private theorem Loop.ofJson?_iff_of_body {l : Loop} (hbody : l.body.ReadByForm) (j : Json) :
    ofJson? j = some l ↔ l.IsForm j := by
  obtain ⟨test, body⟩ := l
  rw [IsForm, formOf, isRecord_iff (forall₂_readAs (by simp)), ofJson?]
  split
  · next hj =>
    simp [hj, Expression.ofJson?_eq_some_iff, hbody _, Option.bind_eq_some_iff]
  · simp_all [List.forall₂_cons_left_iff]

private theorem Block.ofJson?_iff_of_members {b : Block} (h : ∀ m ∈ b.members, m.ReadByForm)
    (j : Json) :
    ofJson? j = some b ↔ b.IsForm j := by
  obtain ⟨ms⟩ := b
  rw [IsForm, formOf, isRecord_iff (forall₂_readAs (by simp)), ofJson?]
  split
  · next items hj =>
    simp [hj, Statement.ofJsonAll?_eq_mapM, mapM_eq_some_iff_isArray h]
  · next hj =>
    simp only [reduceCtorEq, List.forall₂_cons_left_iff, List.forall₂_nil_left_iff, false_iff]
    rintro ⟨vs, hvs, v, ws, hv, rfl, rfl⟩
    cases v with
    | array items => exact hj items hvs
    | _ => exact hv

theorem Assignment.toStatement_injective : Function.Injective toStatement := by
  rintro ⟨_, _⟩ ⟨_, _⟩ h
  cases h
  rfl

theorem Conditional.toStatement_injective : Function.Injective toStatement := by
  rintro ⟨_, _, _⟩ ⟨_, _, _⟩ h
  cases h
  rfl

theorem Loop.toStatement_injective : Function.Injective toStatement := by
  rintro ⟨_, _⟩ ⟨_, _⟩ h
  cases h
  rfl

theorem Block.toStatement_injective : Function.Injective toStatement := by
  rintro ⟨_⟩ ⟨_⟩ h
  cases h
  rfl

private theorem Statement.readByForm (s : Statement) : s.ReadByForm := by
  induction s using Statement.inductionOn with
  | skip =>
    intro j
    rw [IsForm, isUnit_iff]
    constructor
    · intro h
      obtain ⟨c, hc⟩ := variant?_of_ofJson? h
      rw [hc, (ofJson?_of_skip hc).mp h]
      rfl
    · exact fun h ↦ (ofJson?_of_skip h).mpr rfl
  | assignment target source =>
    rw [ReadByForm, IsForm]
    refine read_iff_isVariant not_isRecord_null (fun _ ↦ variant?_of_ofJson?) fun j c h ↦ ?_
    rw [ofJson?_of_assignment h, ← Assignment.ofJson?_eq_some_iff]
    exact Option.mem_map_of_injective Assignment.toStatement_injective (a := ⟨target, source⟩)
  | conditional test t e ht he =>
    rw [ReadByForm, isForm_conditional]
    refine read_iff_isVariant (Conditional.not_isForm_null _) (fun _ ↦ variant?_of_ofJson?)
      fun j c h ↦ ?_
    rw [ofJson?_of_conditional h, ← Conditional.ofJson?_iff_of_branches ht he]
    exact Option.mem_map_of_injective Conditional.toStatement_injective (a := ⟨test, t, e⟩)
  | loop test body ih =>
    rw [ReadByForm, isForm_loop]
    refine read_iff_isVariant (Loop.not_isForm_null _) (fun _ ↦ variant?_of_ofJson?)
      fun j c h ↦ ?_
    rw [ofJson?_of_loop h, ← Loop.ofJson?_iff_of_body ih]
    exact Option.mem_map_of_injective Loop.toStatement_injective (a := ⟨test, body⟩)
  | block ms ih =>
    rw [ReadByForm, isForm_block]
    refine read_iff_isVariant (Block.not_isForm_null _) (fun _ ↦ variant?_of_ofJson?)
      fun j c h ↦ ?_
    rw [ofJson?_of_block h, ← Block.ofJson?_iff_of_members ih]
    exact Option.mem_map_of_injective Block.toStatement_injective (a := ⟨ms⟩)

theorem Conditional.ofJson?_eq_some_iff {c : Conditional} {j : Json} :
    ofJson? j = some c ↔ c.IsForm j :=
  ofJson?_iff_of_branches c.thenBranch.readByForm (fun e _ ↦ e.readByForm) j

theorem Loop.ofJson?_eq_some_iff {l : Loop} {j : Json} : ofJson? j = some l ↔ l.IsForm j :=
  ofJson?_iff_of_body l.body.readByForm j

theorem Block.ofJson?_eq_some_iff {b : Block} {j : Json} : ofJson? j = some b ↔ b.IsForm j :=
  ofJson?_iff_of_members (fun m _ ↦ m.readByForm) j

/-! ## Programs -/

/-- The forms of a declaration. -/
def Declaration.IsForm (d : Declaration) : Json → Prop :=
  IsRecord [.always "ty" d.ty.IsForm, .always "variable" d.declared.IsForm]

/-- The forms of a program. -/
def Program.IsForm (p : Program) : Json → Prop :=
  IsRecord [.always "declarations" (IsArray (p.declarations.map Declaration.IsForm)),
    .always "body" p.body.IsForm]

theorem Declaration.ofJson?_eq_some_iff {d : Declaration} {j : Json} :
    ofJson? j = some d ↔ d.IsForm j := by
  rw [IsForm, isRecord_iff (forall₂_readAs (by simp)), ofJson?]
  obtain ⟨ty, declared⟩ := d
  split
  · next hj =>
    simp [hj, VarType.ofJson?_eq_some_iff, Variable.ofJson?_eq_some_iff, Option.bind_eq_some_iff]
  · simp_all [List.forall₂_cons_left_iff]

theorem Program.ofJson?_eq_some_iff {p : Program} {j : Json} :
    ofJson? j = some p ↔ p.IsForm j := by
  rw [IsForm, isRecord_iff (forall₂_readAs (by simp)), ofJson?]
  obtain ⟨ds, body⟩ := p
  split
  · next declarations _ hj =>
    cases declarations with
    | array items =>
      have hitems := @mapM_eq_some_iff_isArray _ Declaration.ofJson? Declaration.IsForm ds
        (fun _ _ _ ↦ Declaration.ofJson?_eq_some_iff) items
      simp [hj, array?, hitems, Block.ofJson?_eq_some_iff, Option.bind_eq_some_iff]
    | _ => simp [hj, array?, IsArray]
  · simp_all [List.forall₂_cons_left_iff]

/-! ## What is written -/

theorem Variable.isForm_toJson (v : Variable) : v.IsForm v.toJson := by
  simp [IsForm, toJson]

theorem VarType.isForm_toJson (ty : VarType) : ty.IsForm ty.toJson := by
  cases ty <;> exact .inl rfl

theorem Value.isForm_toJson (v : Value) : v.IsForm v.toJson := by
  cases v <;> exact ⟨_, rfl, rfl⟩

/-- Whether both offsets of a span are words of 64 bits. -/
def Span.IsWide (s : Span) : Prop := s.start < UInt64.size ∧ s.stop < UInt64.size

theorem Span.isForm_toJson {s : Span} (h : s.IsWide) : s.IsForm s.toJson := by
  simp [IsForm, toJson, IsOffset, h.1, h.2]

theorem Expression.isForm_toJson (e : Expression) : e.IsForm e.toJson := by
  induction e with
  | «variable» v => exact ⟨_, rfl, v.isForm_toJson⟩
  | value v => exact ⟨_, rfl, v.isForm_toJson⟩
  | unary op operand ih =>
    refine ⟨_, rfl, ?_⟩
    simp [Operator.IsForm, Operator.toJson, ih]
  | binary op left right ihl ihr =>
    refine ⟨_, rfl, ?_⟩
    simp [Operator.IsForm, Operator.toJson, ihl, ihr]

theorem Assignment.isForm_toJson (a : Assignment) : a.IsForm a.toJson := by
  simp [IsForm, toJson, a.target.isForm_toJson, a.source.isForm_toJson]

private theorem Conditional.isForm_toJson_of {c : Conditional}
    (hthen : c.thenBranch.IsForm c.thenBranch.toJson)
    (helse : ∀ e ∈ c.elseBranch, e.IsForm e.toJson) : c.IsForm c.toJson := by
  obtain ⟨test, t, e⟩ := c
  cases e with
  | none =>
    simp [IsForm, formOf, toJson, elseField, test.isForm_toJson, hthen]
  | some s =>
    simp [IsForm, formOf, toJson, elseField, test.isForm_toJson, hthen, helse s rfl]

private theorem Loop.isForm_toJson_of {l : Loop} (h : l.body.IsForm l.body.toJson) :
    l.IsForm l.toJson := by
  simp [IsForm, formOf, toJson, l.test.isForm_toJson, h]

private theorem Block.isForm_toJson_of {b : Block} (h : ∀ m ∈ b.members, m.IsForm m.toJson) :
    b.IsForm b.toJson := by
  simpa [IsForm, formOf, toJson] using h

namespace Statement

private theorem toJsonAll_eq_map (ms : List Statement) : toJsonAll ms = ms.map toJson := by
  induction ms with
  | nil => rw [toJsonAll, List.map_nil]
  | cons m ms ih => rw [toJsonAll, List.map_cons, ih]

private theorem toJson_conditional (test : Expression) (t : Statement) (e : Option Statement) :
    (conditional test t e).toJson = .object [("Conditional", Conditional.toJson ⟨test, t, e⟩)] := by
  cases e <;> rw [toJson, Conditional.toJson] <;> rfl

private theorem toJson_block (ms : List Statement) :
    (block ms).toJson = .object [("Block", Block.toJson ⟨ms⟩)] := by
  rw [toJson, Block.toJson, toJsonAll_eq_map]

theorem isForm_toJson (s : Statement) : s.IsForm s.toJson := by
  induction s using Statement.inductionOn with
  | skip => exact .inl rfl
  | assignment target source => exact ⟨_, rfl, Assignment.isForm_toJson ⟨target, source⟩⟩
  | conditional test t e ht he =>
    rw [isForm_conditional, toJson_conditional]
    exact ⟨_, rfl, Conditional.isForm_toJson_of ht he⟩
  | loop test body ih =>
    rw [isForm_loop]
    exact ⟨_, rfl, Loop.isForm_toJson_of (l := ⟨test, body⟩) ih⟩
  | block ms ih =>
    rw [isForm_block, toJson_block]
    exact ⟨_, rfl, Block.isForm_toJson_of ih⟩

end Statement

theorem Conditional.isForm_toJson (c : Conditional) : c.IsForm c.toJson :=
  isForm_toJson_of c.thenBranch.isForm_toJson fun e _ ↦ e.isForm_toJson

theorem Loop.isForm_toJson (l : Loop) : l.IsForm l.toJson := isForm_toJson_of l.body.isForm_toJson

theorem Block.isForm_toJson (b : Block) : b.IsForm b.toJson :=
  isForm_toJson_of fun m _ ↦ m.isForm_toJson

theorem Declaration.isForm_toJson (d : Declaration) : d.IsForm d.toJson := by
  simp [IsForm, toJson, d.ty.isForm_toJson, d.declared.isForm_toJson]

theorem Program.isForm_toJson (p : Program) : p.IsForm p.toJson := by
  simp [IsForm, toJson, Declaration.isForm_toJson, p.body.isForm_toJson]

/-! ## Exact readers -/

/-- What it is for the values of a type to be read from JSON by their forms. -/
structure ReadsExactly {α : Type} (write : α → Json) (read : Json → Option α)
    (IsForm : α → Json → Prop) : Prop where
  /-- A value is read from its forms and from nothing else. -/
  read_iff : ∀ x j, read j = some x ↔ IsForm x j
  /-- What is written is read back. -/
  read_write : ∀ x, read (write x) = some x
  /-- Different values are written differently. -/
  write_injective : Function.Injective write

private theorem ReadsExactly.of_forms {α : Type} {write : α → Json} {read : Json → Option α}
    {IsForm : α → Json → Prop} (hread : ∀ x j, read j = some x ↔ IsForm x j)
    (hwrite : ∀ x, IsForm x (write x)) : ReadsExactly write read IsForm where
  read_iff := hread
  read_write x := (hread x _).mpr (hwrite x)
  write_injective x y h := by
    have hx := (hread x _).mpr (hwrite x)
    rw [h, (hread y _).mpr (hwrite y)] at hx
    exact (Option.some.inj hx).symm

theorem Span.toJson_injective : Function.Injective toJson := by
  rintro ⟨start, stop⟩ ⟨start', stop'⟩ h
  simp only [toJson, object.injEq, List.cons.injEq, Prod.mk.injEq, integer.injEq, Int.natCast_inj]
    at h
  rw [h.1.2, h.2.1.2]

/-- Every kind of node is read from JSON by its forms and from nothing else, so that what is written
is read back and different trees are written differently. Spans are read back if their offsets are
words of 64 bits, as those in any text are. -/
theorem nodes_readExactly :
    ReadsExactly Program.toJson Program.ofJson? Program.IsForm ∧
    ReadsExactly Declaration.toJson Declaration.ofJson? Declaration.IsForm ∧
    ReadsExactly Variable.toJson Variable.ofJson? Variable.IsForm ∧
    ReadsExactly Block.toJson Block.ofJson? Block.IsForm ∧
    ReadsExactly Statement.toJson Statement.ofJson? Statement.IsForm ∧
    ReadsExactly Assignment.toJson Assignment.ofJson? Assignment.IsForm ∧
    ReadsExactly Conditional.toJson Conditional.ofJson? Conditional.IsForm ∧
    ReadsExactly Loop.toJson Loop.ofJson? Loop.IsForm ∧
    ReadsExactly Expression.toJson Expression.ofJson? Expression.IsForm ∧
    ReadsExactly Value.toJson Value.ofJson? Value.IsForm ∧
    ReadsExactly VarType.toJson VarType.ofJson? VarType.IsForm ∧
    (∀ (s : Span) (j : Json), Span.ofJson? j = some s ↔ s.IsForm j) ∧
    (∀ s : Span, s.IsWide → Span.ofJson? s.toJson = some s) ∧
    Function.Injective Span.toJson :=
  ⟨.of_forms (fun _ _ ↦ Program.ofJson?_eq_some_iff) Program.isForm_toJson,
    .of_forms (fun _ _ ↦ Declaration.ofJson?_eq_some_iff) Declaration.isForm_toJson,
    .of_forms (fun _ _ ↦ Variable.ofJson?_eq_some_iff) Variable.isForm_toJson,
    .of_forms (fun _ _ ↦ Block.ofJson?_eq_some_iff) Block.isForm_toJson,
    .of_forms Statement.readByForm Statement.isForm_toJson,
    .of_forms (fun _ _ ↦ Assignment.ofJson?_eq_some_iff) Assignment.isForm_toJson,
    .of_forms (fun _ _ ↦ Conditional.ofJson?_eq_some_iff) Conditional.isForm_toJson,
    .of_forms (fun _ _ ↦ Loop.ofJson?_eq_some_iff) Loop.isForm_toJson,
    .of_forms (fun _ _ ↦ Expression.ofJson?_eq_some_iff) Expression.isForm_toJson,
    .of_forms (fun _ _ ↦ Value.ofJson?_eq_some_iff) Value.isForm_toJson,
    .of_forms (fun _ _ ↦ VarType.ofJson?_eq_some_iff) VarType.isForm_toJson,
    fun _ _ ↦ Span.ofJson?_eq_some_iff,
    fun _ h ↦ Span.ofJson?_eq_some_iff.mpr (Span.isForm_toJson h),
    Span.toJson_injective⟩

/-- The widest span is read back. -/
theorem nodes_readExactly_widest :
    Span.IsWide ⟨0, 18446744073709551615⟩ ∧
      Span.ofJson? (Span.toJson ⟨0, 18446744073709551615⟩) = some ⟨0, 18446744073709551615⟩ := by
  obtain ⟨-, -, -, -, -, -, -, -, -, -, -, -, hwide, -⟩ := nodes_readExactly
  have hwidest : Span.IsWide ⟨0, 18446744073709551615⟩ := ⟨by decide, by decide⟩
  exact ⟨hwidest, hwide _ hwidest⟩

end Kay
