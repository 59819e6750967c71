import Kay.Proofs.Grammar.Derivation
import Kay.Proofs.Grammar.Reading

/-!
# What each level of expressions reads

The rules of expressions are combinators over a rule for what stands between parentheses. Here each
of them is turned into a statement of what it reads, without any recursion yet: a level of the
grammar is the rule `level l g`, where `g` reads a parenthesised factor, and all levels that
associate to the left are one rule with their operators as a parameter (`level_of_associates`).
-/

namespace Kay

open Grammar Text

/-! ## Scanned streams -/

/-- Whether the tokens of a stream can come from a text. -/
def Stream.Scanned (s : Stream) : Prop := ∀ t ∈ s.tokens, Admissible t.kind t.text.toList

theorem Stream.scanned_ofSource (source : String) : (Stream.ofSource source).Scanned :=
  fun _ ht ↦ admissible_of_mem_place ht

theorem Stream.Scanned.of_prepend {s : Stream} {ts : List Token} (h : (s.prepend ts).Scanned) :
    s.Scanned :=
  fun t ht ↦ h t (List.mem_append_right ts ht)

theorem Stream.Scanned.advance {s : Stream} (h : s.Scanned) : s.advance.Scanned :=
  fun t ht ↦ h t (List.mem_of_mem_tail ht)

/-- The end of input is no token of a text. -/
theorem Stream.Scanned.tokens_eq_nil {s : Stream} (h : s.Scanned)
    (hend : s.current.kind = .endOfInput) : s.tokens = [] := by
  obtain ⟨tokens, stop⟩ := s
  cases tokens with
  | nil => rfl
  | cons t ts => exact absurd hend (h t List.mem_cons_self).ne_endOfInput

/-- Every operator that is scanned is in the table. -/
theorem Stream.Scanned.mem_operators {s : Stream} (h : s.Scanned) {op : String}
    (hop : s.current.terminal = .operator op) : op ∈ operators := by
  have hkind : s.current.kind = .operator := Token.kind_eq hop
  have hmem : s.current ∈ s.tokens := by
    rw [Stream.eq_prepend_advance (s := s) (hkind.trans_ne (by decide))]
    simp
  have hadm := h _ hmem
  obtain rfl : s.current.text = op := Token.text_eq hop
  rw [hkind] at hadm
  cases hadm with
  | operator hadm => rwa [String.ofList_toList] at hadm

namespace Rule

variable {g : Rule Expression} {s s' : Stream} {e : Expression}

/-! ## Levels -/

/-- The rule for a parenthesised factor, where `depth` levels are open and `room` more may be
opened. -/
def group (depth : Nat) : (room : Nat) → Rule Expression
  | 0 => tooDeep depth
  | room + 1 => nested depth do
    let _ ← advance
    let e ← expression (depth + 1) room
    let _ ← expectSeparator ")" .factor
    pure e

/-- The rule of a level, over the rule for a parenthesised factor. -/
def level : Level → Rule Expression → Rule Expression
  | .disjunction => disjunction
  | .conjunction => conjunction
  | .relation => relation
  | .addition => addition
  | .term => term
  | .negation => negation
  | .factor => factor

theorem expression_eq (depth room : Nat) :
    expression depth room = level .disjunction (group depth room) := by
  cases room <;> rfl

theorem level_of_associates {l : Level} (hl : l.associates = true) :
    level l g = leftAssociative l.operators (level l.tighter g) := by
  cases l with
  | disjunction | conjunction | addition | term => rfl
  | relation | negation | factor => exact absurd hl (by decide)

/-! ## No rule moves back -/

theorem advances_operands {ops : List String} {p : Rule Expression} (hp : Advances p) :
    Advances (operands ops p) := by
  refine hp.bind fun first ↦ (advances_many fun t item h ↦ ?_).bind fun _ ↦ advances_pure _
  split at h
  · obtain rfl := Option.some.inj h
    exact (advances_advance.bind fun _ ↦ advances_pure _).bind fun _ ↦
      hp.bind fun _ ↦ advances_pure _
  · exact absurd h (by simp)

theorem advances_leftAssociative {ops : List String} {p : Rule Expression} (hp : Advances p) :
    Advances (leftAssociative ops p) :=
  (advances_operands hp).bind fun _ ↦ advances_pure _

theorem advances_nonAssociative {ops : List String} {p : Rule Expression} (hp : Advances p) :
    Advances (nonAssociative ops p) :=
  hp.bind fun _ ↦ advances_current.bind fun _ ↦
    .ite ((advances_advance.bind fun _ ↦ advances_pure _).bind fun _ ↦
      hp.bind fun _ ↦ advances_pure _) (advances_pure _)

theorem advances_factor (hg : Advances g) : Advances (factor g) := by
  refine advances_current.bind fun t ↦ .ite ?_ (.ite ?_ (.ite ?_ (.ite ?_ (.ite hg ?_))))
  · exact advances_advance.bind fun _ ↦ advances_pure _
  · refine advances_advance.bind fun _ ↦ ?_
    split
    · exact advances_pure _
    · exact advances_fail _
  · exact advances_advance.bind fun _ ↦ advances_pure _
  · exact advances_advance.bind fun _ ↦ advances_pure _
  · exact advances_unexpected _ _

theorem advances_negation (hg : Advances g) : Advances (negation g) :=
  advances_current.bind fun _ ↦
    .ite ((advances_advance.bind fun _ ↦ advances_pure _).bind fun _ ↦
      (advances_factor hg).bind fun _ ↦ advances_pure _) (advances_factor hg)

theorem advances_level (hg : Advances g) (l : Level) : Advances (level l g) := by
  have hnegation := advances_negation hg
  have hterm : Advances (term g) := advances_leftAssociative hnegation
  have haddition : Advances (addition g) := advances_leftAssociative hterm
  have hrelation : Advances (relation g) := advances_nonAssociative haddition
  have hconjunction : Advances (conjunction g) := advances_leftAssociative hrelation
  cases l with
  | disjunction => exact advances_leftAssociative hconjunction
  | conjunction => exact hconjunction
  | relation => exact hrelation
  | addition => exact haddition
  | term => exact hterm
  | negation => exact hnegation
  | factor => exact advances_factor hg

theorem advances_tooDeep {α : Type} (limit : Nat) : Advances (tooDeep limit : Rule α) :=
  advances_current.bind fun _ ↦ advances_fail _

theorem advances_group (depth room : Nat) : Advances (group depth room) := by
  induction room generalizing depth with
  | zero => exact advances_tooDeep depth
  | succ room ih =>
    have hexpression : Advances (expression (depth + 1) room) := by
      rw [expression_eq]
      exact advances_level (ih (depth + 1)) .disjunction
    exact (advances_advance.bind fun _ ↦ hexpression.bind fun _ ↦
      (advances_expect _ _).bind fun _ ↦ advances_pure _).nested

theorem advances_expression (depth room : Nat) : Advances (expression depth room) := by
  rw [expression_eq]
  exact advances_level (advances_group depth room) .disjunction

/-! ## What each level reads -/

/-- The value of a literal, by the library and by the grammar. -/
theorem value_toList (text : String) : Decimal.value text.toList = decimalValue text := by
  -- The library reads digits from the left, the grammar counts them from the units.
  have h : ∀ cs : List Char, Decimal.value cs.reverse
      = Nat.ofDigits 10 (cs.map fun c ↦ c.toNat - '0'.toNat) := by
    intro cs
    induction cs with
    | nil => rfl
    | cons c cs ih =>
      rw [List.reverse_cons, Decimal.value_append_singleton, ih, List.map_cons, Nat.ofDigits_cons,
        Nat.add_comm]
  rw [decimalValue, ← h, List.reverse_reverse]

theorem literalValue?_eq_some_iff {text : String} {n : Int32} :
    literalValue? text = some n ↔
      decimalValue text ≤ 2147483647 ∧ n = Int32.ofNat (decimalValue text) := by
  rw [literalValue?, value_toList, maxLiteral]
  split
  · next h => simp [h, eq_comm]
  · next h => simp [h]

/-- A group is a token, an expression and a closing parenthesis. -/
theorem yields_group_succ {depth room : Nat} : Yields (group depth (room + 1)) s e s' ↔
    ∃ t, t.terminal = .separator ")" ∧
      Yields (expression (depth + 1) room) s.advance e (s'.prepend [t]) := by
  rw [group, yields_nested, yields_advance_bind, yields_bind]
  constructor
  · rintro ⟨e', s₁, he, h⟩
    obtain ⟨t, s₂, ht, hpure⟩ := yields_bind.mp h
    obtain ⟨rfl, rfl⟩ := yields_pure.mp hpure
    obtain ⟨hclose, rfl⟩ := yields_expectSeparator.mp ht
    exact ⟨t, hclose, he⟩
  · rintro ⟨t, hclose, he⟩
    exact ⟨e, s'.prepend [t], he, yields_bind.mpr ⟨t, s',
      yields_expectSeparator.mpr ⟨hclose, rfl⟩, yields_pure.mpr ⟨rfl, rfl⟩⟩⟩

/-- A factor is an atom or what stands between parentheses. -/
theorem factor_cases (h : Yields (factor g) s e s') :
    (∃ t, s = s'.prepend [t] ∧ Atom t.terminal e) ∨
      (s.current.terminal = .separator "(" ∧ Yields g s e s') := by
  have hread : ∀ {k : TokenKind}, s.current.kind = k → k ≠ .endOfInput →
      s = s.advance.prepend [s.current] :=
    fun hk hne ↦ Stream.eq_prepend_advance (hk.trans_ne hne)
  -- One alternative after the other, as the rule tries them.
  rw [factor, yields_current_bind] at h
  split at h
  · next hk =>
    rw [yields_advance_bind, yields_pure] at h
    obtain ⟨rfl, rfl⟩ := h
    refine .inl ⟨_, hread hk (by decide), ?_⟩
    rw [Token.terminal, hk]
    exact .reference _
  · split at h
    · next hk =>
      rw [yields_advance_bind] at h
      split at h
      · next n hn =>
        obtain ⟨rfl, rfl⟩ := yields_pure.mp h
        obtain ⟨hle, rfl⟩ := literalValue?_eq_some_iff.mp hn
        refine .inl ⟨_, hread hk (by decide), ?_⟩
        rw [Token.terminal, hk]
        exact .literal hle
      · exact absurd h not_yields_fail
    · split at h
      · next hk =>
        rw [yields_advance_bind, yields_pure] at h
        obtain ⟨rfl, rfl⟩ := h
        have hterminal := Token.is_iff.mp hk
        refine .inl ⟨_, hread (Token.kind_eq hterminal) (by decide), ?_⟩
        rw [hterminal]
        exact .true
      · split at h
        · next hk =>
          rw [yields_advance_bind, yields_pure] at h
          obtain ⟨rfl, rfl⟩ := h
          have hterminal := Token.is_iff.mp hk
          refine .inl ⟨_, hread (Token.kind_eq hterminal) (by decide), ?_⟩
          rw [hterminal]
          exact .false
        · split at h
          · next hk => exact .inr ⟨Token.is_iff.mp hk, h⟩
          · exact absurd h not_yields_unexpected

/-- Every atom is read as a factor. -/
theorem yields_factor_of_atom {t : Token} (h : Atom t.terminal e) :
    Yields (factor g) (s'.prepend [t]) e s' := by
  obtain ⟨kind, text, span⟩ := t
  rw [Token.terminal] at h
  rw [factor, yields_current_bind, Stream.current_prepend_cons]
  cases h with
  | reference name => simp [yields_map]
  | literal hle =>
    have hvalue := literalValue?_eq_some_iff.mpr ⟨hle, rfl⟩
    simp [yields_map, hvalue]
  | true => simp [yields_map, Token.isKeyword, Token.is]
  | false => simp [yields_map, Token.isKeyword, Token.is]

/-- At an opening parenthesis, a factor is what the rule for groups reads. -/
theorem yields_factor_of_parenthesis {t : Token} {ts : List Token}
    (h : t.terminal = .separator "(") :
    Yields (factor g) (s.prepend (t :: ts)) e s' ↔ Yields g (s.prepend (t :: ts)) e s' := by
  obtain ⟨hkind, htext⟩ := Terminal.mk.inj h
  rw [factor, yields_current_bind]
  simp [Token.isKeyword, Token.isSeparator, Token.is, hkind, htext]

theorem yields_operator {op : Operator} :
    Yields operator s op s' ↔ op = ⟨s.current.text⟩ ∧ s' = s.advance := by
  rw [operator, yields_advance_bind, yields_pure]

/-- A negation is a factor, or `!` and a factor. -/
theorem yields_negation : Yields (negation g) s e s' ↔
    if s.current.terminal = .operator "!" then
      ∃ e', Yields (factor g) s.advance e' s' ∧ e = .unary ⟨"!"⟩ e'
    else Yields (factor g) s e s' := by
  have hbang : s.current.isOperatorIn ["!"] = true ↔ s.current.terminal = .operator "!" := by
    simp [Token.isOperatorIn_iff]
  rw [negation, yields_current_bind]
  by_cases h : s.current.terminal = .operator "!"
  · rw [if_pos h, if_pos (hbang.mpr h), yields_bind]
    have htext : s.current.text = "!" := Token.text_eq h
    constructor
    · rintro ⟨op, s₁, hop, h'⟩
      obtain ⟨rfl, rfl⟩ := yields_operator.mp hop
      obtain ⟨e', s₁, he, hpure⟩ := yields_bind.mp h'
      obtain ⟨rfl, rfl⟩ := yields_pure.mp hpure
      exact ⟨e', he, by rw [htext]⟩
    · rintro ⟨e', he, rfl⟩
      exact ⟨_, _, yields_operator.mpr ⟨rfl, rfl⟩,
        yields_bind.mpr ⟨e', s', he, yields_pure.mpr ⟨by rw [htext], rfl⟩⟩⟩
  · rw [if_neg h, if_neg (mt hbang.mp h)]

/-- The operators of a comparison that the scanner knows. -/
theorem mem_relations_iff {op : String} (h : op ∈ operators) :
    op ∈ Operator.relations ↔ op ∈ Level.relation.operators := by
  have hall : ∀ o ∈ operators, o ∈ Operator.relations ↔ o ∈ Level.relation.operators := by decide
  exact hall op h

/-- A level without association reads one operand, or two with an operator between. -/
theorem yields_nonAssociative {ops : List String} {p : Rule Expression} :
    Yields (nonAssociative ops p) s e s' ↔ ∃ left s₁, Yields p s left s₁ ∧
      if s₁.current.isOperatorIn ops = true then
        ∃ right, Yields p s₁.advance right s' ∧ e = .binary ⟨s₁.current.text⟩ left right
      else e = left ∧ s' = s₁ := by
  have hrest : ∀ left s₁, Yields (do
        if (← current).isOperatorIn ops then
          let op ← operator
          let right ← p
          pure (.binary op left right)
        else pure left) s₁ e s' ↔
      if s₁.current.isOperatorIn ops = true then
        ∃ right, Yields p s₁.advance right s' ∧ e = .binary ⟨s₁.current.text⟩ left right
      else e = left ∧ s' = s₁ := by
    intro left s₁
    rw [yields_current_bind]
    split
    · rw [yields_bind]
      constructor
      · rintro ⟨op, s₂, hop, h⟩
        obtain ⟨rfl, rfl⟩ := yields_operator.mp hop
        obtain ⟨right, s₃, hright, hpure⟩ := yields_bind.mp h
        obtain ⟨rfl, rfl⟩ := yields_pure.mp hpure
        exact ⟨right, hright, rfl⟩
      · rintro ⟨right, hright, rfl⟩
        exact ⟨_, _, yields_operator.mpr ⟨rfl, rfl⟩,
          yields_bind.mpr ⟨right, s', hright, yields_pure.mpr ⟨rfl, rfl⟩⟩⟩
    · exact yields_pure
  rw [nonAssociative, yields_bind]
  exact exists_congr fun left ↦ exists_congr fun s₁ ↦ and_congr_right fun _ ↦ hrest left s₁

/-- One more operand behind an operator, as `operands` asks for it. -/
def operandItem (ops : List String) (p : Rule Expression) :
    Token → Option (Rule (Operator × Expression)) := fun t ↦
  if t.isOperatorIn ops then some (do
    let op ← operator
    let right ← p
    pure (op, right))
  else none

theorem operandItem_eq_none_iff {ops : List String} {p : Rule Expression} {t : Token} :
    operandItem ops p t = none ↔ t.isOperatorIn ops = false := by
  rw [operandItem]
  split <;> simp_all

theorem eq_of_operandItem_eq_some {ops : List String} {p : Rule Expression}
    {item : Rule (Operator × Expression)} {t : Token} (hitem : operandItem ops p t = some item) :
    t.isOperatorIn ops = true ∧
      item = operator >>= fun op ↦ p >>= fun right ↦ pure (op, right) := by
  rw [operandItem] at hitem
  split at hitem
  · next ht => exact ⟨ht, (Option.some.inj hitem).symm⟩
  · exact absurd hitem (by simp)

/-- One more operand is an operator and what follows it. -/
theorem yields_operandItem {ops : List String} {p : Rule Expression}
    {item : Rule (Operator × Expression)} {o : Operator × Expression} {t : Token}
    (hitem : operandItem ops p t = some item) :
    t.isOperatorIn ops = true ∧
      (Yields item s o s' ↔ o.1 = ⟨s.current.text⟩ ∧ Yields p s.advance o.2 s') := by
  obtain ⟨ht, rfl⟩ := eq_of_operandItem_eq_some hitem
  refine ⟨ht, ?_⟩
  rw [yields_bind]
  constructor
  · rintro ⟨op, s₁, hop, h⟩
    obtain ⟨rfl, rfl⟩ := yields_operator.mp hop
    obtain ⟨right, s₂, hright, hpure⟩ := yields_bind.mp h
    obtain ⟨rfl, rfl⟩ := yields_pure.mp hpure
    exact ⟨rfl, hright⟩
  · rintro ⟨hop, hright⟩
    exact ⟨_, _, yields_operator.mpr ⟨rfl, rfl⟩,
      yields_bind.mpr ⟨o.2, s', hright, yields_pure.mpr ⟨by rw [← hop], rfl⟩⟩⟩

theorem progressive_operandItem {ops : List String} {p : Rule Expression} (hp : Advances p) :
    Progressive (operandItem ops p) where
  length_lt := by
    intro s item o s' hitem ho
    obtain ⟨hop, hyields⟩ := yields_operandItem hitem
    obtain ⟨op, -, hterminal⟩ := Token.isOperatorIn_iff.mp hop
    have hlt := Stream.length_advance_lt ((Token.kind_eq hterminal).trans_ne (by simp))
    exact (hp.length_le (hyields.mp ho).2).trans_lt hlt
  endOfInput n := operandItem_eq_none_iff.mpr (by simp [Token.endOfInput, Token.isOperatorIn])

/-- A level that associates to the left reads operands and joins them. -/
theorem yields_leftAssociative {ops : List String} {p : Rule Expression} (hp : Advances p) :
    Yields (leftAssociative ops p) s e s' ↔ ∃ first s₁ others, Yields p s first s₁ ∧
      Repeats (operandItem ops p) s₁ others s' ∧ e = joinLeft first others := by
  have hmany : ∀ {s s' others}, Yields (many (operandItem ops p)) s others s' ↔
      Repeats (operandItem ops p) s others s' := yields_many (progressive_operandItem hp)
  rw [leftAssociative, yields_bind]
  constructor
  · rintro ⟨⟨first, others⟩, s₂, hoperands, hpure⟩
    obtain ⟨rfl, rfl⟩ := yields_pure.mp hpure
    obtain ⟨first', s₁, hfirst, hrest⟩ := yields_bind.mp hoperands
    obtain ⟨others', s₃, hothers, hpure⟩ := yields_bind.mp hrest
    obtain ⟨heq, rfl⟩ := yields_pure.mp hpure
    obtain ⟨rfl, rfl⟩ := Prod.mk.inj heq
    exact ⟨first, s₁, others, hfirst, hmany.mp hothers, rfl⟩
  · rintro ⟨first, s₁, others, hfirst, hothers, rfl⟩
    exact ⟨(first, others), s', yields_bind.mpr ⟨first, s₁, hfirst, yields_bind.mpr
      ⟨others, s', hmany.mpr hothers, yields_pure.mpr ⟨rfl, rfl⟩⟩⟩, yields_pure.mpr ⟨rfl, rfl⟩⟩

end Rule

end Kay
