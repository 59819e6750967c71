import Kay.Proofs.Grammar.Program

/-!
# The grammar is unambiguous

A list of terminals derives one program at most, and with one nesting (`DerivesProgram.unique`). The
tree is unique because every derivation is read by the parser, which reads one tree. The nesting is
not part of what is read. For an expression it is a number that can be counted off the terminals,
the greatest number of parentheses that are open at once. For a statement the two derivations are
followed together; that they cut the terminals in the same places is again known from the parser
(`split_unique`).
-/

namespace Kay

/-- The stream of some terminals, all at one place. -/
def Stream.ofTerminals (ts : List Terminal) : Stream := ⟨ts.map fun t ↦ ⟨t.kind, t.text, ⟨0, 0⟩⟩, 0⟩

theorem Stream.map_terminal_ofTerminals (ts : List Terminal) :
    (Stream.ofTerminals ts).tokens.map Token.terminal = ts := by
  rw [ofTerminals, List.map_map]
  exact List.map_id ts

namespace Grammar

/-! ## Expressions -/

/-- The number of parentheses that are open behind a terminal, if `k` are open in front of it. -/
private def openParentheses (k : Nat) (t : Terminal) : Nat :=
  if t = .separator "(" then k + 1 else if t = .separator ")" then k - 1 else k

/-- The greatest number of parentheses that are open at once, if `k` are open in front. -/
private def deepest : Nat → List Terminal → Nat
  | k, [] => k
  | k, t :: ts => max k (deepest (openParentheses k t) ts)

private theorem le_deepest (k : Nat) (w : List Terminal) : k ≤ deepest k w := by
  cases w with
  | nil => exact Nat.le_refl k
  | cons t ts => exact Nat.le_max_left _ _

private theorem deepest_cons {t : Terminal} (h : t.kind ≠ .separator) (k : Nat)
    (w : List Terminal) : deepest k (t :: w) = deepest k w := by
  have hne : ∀ text, t ≠ .separator text := fun text heq ↦ h (congrArg Terminal.kind heq)
  rw [deepest, openParentheses, if_neg (hne _), if_neg (hne _)]
  exact Nat.max_eq_right (le_deepest k w)

/-- An expression goes as deep as its derivation is nested. -/
private theorem DerivesExpression.deepest_append {l : Level} {w : List Terminal} {e : Expression}
    {n : Nat} (h : DerivesExpression l w e n) (k : Nat) (v : List Terminal) :
    deepest k (w ++ v) = max (k + n) (deepest k v) := by
  have hle := le_deepest
  induction h generalizing k v with
  | atom hatom =>
    have hkind : ∀ {t : Terminal} {e : Expression}, Atom t e → t.kind ≠ .separator := by
      rintro t e ⟨⟩ <;> simp
    rw [List.singleton_append, deepest_cons (hkind hatom), Nat.add_zero,
      Nat.max_eq_right (hle k v)]
  | group _ ih =>
    have hclose : deepest (k + 1) (.separator ")" :: v) = max (k + 1) (deepest k v) := by
      simp [deepest, openParentheses]
    rw [List.cons_append, List.append_assoc, deepest, openParentheses, if_pos rfl, ih,
      List.singleton_append, hclose]
    have := hle k v
    omega
  | not _ ih => rw [List.cons_append, deepest_cons (by simp), ih]
  | operand _ _ ih => exact ih k v
  | chain _ _ _ _ ihe ihf =>
    rw [List.append_assoc, List.cons_append, ihe, deepest_cons (by simp), ihf]
    omega
  | compare _ _ _ ihe ihf =>
    rw [List.append_assoc, List.cons_append, ihe, deepest_cons (by simp), ihf]
    omega

private theorem DerivesExpression.nesting_unique {l l' : Level} {w w' : List Terminal}
    {e e' : Expression} {m n : Nat} (h : DerivesExpression l w e m)
    (h' : DerivesExpression l' w' e' n) (heq : w = w') : m = n := by
  subst heq
  have hm := h.deepest_append 0 []
  have hn := h'.deepest_append 0 []
  simp only [deepest] at hm hn
  omega

/-! ## Where a text can be cut -/

/-- A rule reads terminals in front of others in one way. -/
theorem split_unique {α : Type} {p : Rule α} {a a' : α} {u u' v v' : List Terminal}
    (h : ∀ w s, w.map Token.terminal = u → s.tokens.map Token.terminal = v →
      p.Yields (s.prepend w) a s)
    (h' : ∀ w s, w.map Token.terminal = u' → s.tokens.map Token.terminal = v' →
      p.Yields (s.prepend w) a' s)
    (heq : u ++ v = u' ++ v') : a = a' ∧ u = u' ∧ v = v' := by
  -- Both ways of cutting the terminals cut one stream, and of that the rule reads one part.
  obtain ⟨w₁, w₂, hw, hw₁, hw₂⟩ :=
    List.map_eq_append_iff.mp (Stream.map_terminal_ofTerminals (u ++ v))
  obtain ⟨w₁', w₂', hw', hw₁', hw₂'⟩ :=
    List.map_eq_append_iff.mp ((Stream.map_terminal_ofTerminals (u ++ v)).trans heq)
  have hread := h w₁ ⟨w₂, 0⟩ hw₁ hw₂
  have hread' := h' w₁' ⟨w₂', 0⟩ hw₁' hw₂'
  have hstream : (⟨w₂, 0⟩ : Stream).prepend w₁ = (⟨w₂', 0⟩ : Stream).prepend w₁' := by
    rw [Stream.prepend, Stream.prepend, ← hw, ← hw']
  obtain ⟨rfl, hrest⟩ := hread.unique (hstream ▸ hread')
  obtain ⟨rfl, -⟩ := Stream.mk.inj hrest
  obtain rfl : v = v' := hw₂.symm.trans hw₂'
  exact ⟨rfl, List.append_cancel_right heq, rfl⟩

/-- What follows a separator can only be told from the expression in front in one way. -/
theorem DerivesExpression.split {u u' v v' : List Terminal} {e e' : Expression} {m n : Nat}
    {x y : String} (h : DerivesExpression .disjunction u e m)
    (h' : DerivesExpression .disjunction u' e' n)
    (heq : u ++ .separator x :: v = u' ++ .separator y :: v') : u = u' ∧ v = v' := by
  have hreads : ∀ {u v e k x}, DerivesExpression .disjunction u e k → k ≤ max m n → ∀ w s,
      w.map Token.terminal = u → s.tokens.map Token.terminal = .separator x :: v →
      (Rule.expression 0 (max m n)).Yields (s.prepend w) e s := by
    intro u v e k x h hk w s hw hs
    obtain ⟨t, ts, hts, ht, -⟩ := List.map_eq_cons_iff.mp hs
    refine Rule.yields_of_derives (hw ▸ h) hk ?_
    rw [Stream.current, hts, List.headD_cons, Token.kind_eq ht]
    decide
  obtain ⟨-, hu, hv⟩ :=
    split_unique (hreads h (Nat.le_max_left m n)) (hreads h' (Nat.le_max_right m n)) heq
  exact ⟨hu, (List.cons.inj hv).2⟩

/-- Where no `else` follows that a statement could take, it can be told from what follows in one
way. -/
theorem DerivesStatement.split {u u' v v' : List Terminal} {r r' : Statement} {m n : Nat}
    (h : DerivesStatement u r m) (h' : DerivesStatement u' r' n)
    (hv : r.endsWithOpenIf = true → v.head? ≠ some (.keyword "else"))
    (hv' : r'.endsWithOpenIf = true → v'.head? ≠ some (.keyword "else"))
    (heq : u ++ v = u' ++ v') : r = r' ∧ u = u' ∧ v = v' := by
  have hreads : ∀ {u v r k}, DerivesStatement u r k → k ≤ max m n →
      (r.endsWithOpenIf = true → v.head? ≠ some (.keyword "else")) → ∀ w s,
      w.map Token.terminal = u → s.tokens.map Token.terminal = v →
      (Rule.statement 0 (max m n)).Yields (s.prepend w) r s := by
    intro u v r k h hk hv w s hw hs
    refine Rule.readsAs_of_derives h 0 _ hk hw fun hopen hcurrent ↦ hv hopen ?_
    obtain ⟨tokens, stop⟩ := s
    cases tokens with
    | nil => exact absurd hcurrent (by simp [Stream.current, Token.terminal, Token.endOfInput])
    | cons t ts => rw [← hs, List.map_cons, List.head?_cons, ← hcurrent]; rfl
  exact split_unique (hreads h (Nat.le_max_left m n) hv) (hreads h' (Nat.le_max_right m n) hv') heq

/-! ## Statements -/

theorem head?_ne_else {w : List Terminal} {ms : List Statement} {n : Nat}
    (h : DerivesStatements w ms n) : w.head? ≠ some (.keyword "else") := by
  cases h with
  | nil => exact nofun
  | cons hs =>
    obtain ⟨t, ts, rfl, hstart⟩ := Rule.exists_cons_of_derivesStatement hs
    rw [List.cons_append, List.head?_cons, ne_eq, Option.some.injEq]
    exact hstart.ne (by decide) (by decide)

mutual

private theorem DerivesStatement.nesting_unique : ∀ {u u' r m n}, DerivesStatement u r m →
    DerivesStatement u' r n → u = u' → m = n
  | _, _, _, _, _, .skip, .skip, _ => rfl
  | _, _, _, _, _, .assignment _ he, .assignment _ he', heq => by
    have hw := List.append_cancel_right (List.cons.inj (List.cons.inj heq).2).2
    rw [he.nesting_unique he' hw]
  | _, _, _, _, _, .ifThen hb ht, .ifThen hb' ht', heq => by
    obtain ⟨hw, hu⟩ := hb.split hb' (List.cons.inj (List.cons.inj heq).2).2
    rw [hb.nesting_unique hb' hw, ht.nesting_unique ht' hu]
  | _, _, _, _, _, .ifThenElse hb ht hopen he, .ifThenElse hb' ht' _ he', heq => by
    obtain ⟨hw, hrest⟩ := hb.split hb' (List.cons.inj (List.cons.inj heq).2).2
    have hclosed : ∀ {P : Prop}, _ = true → P := fun h ↦ absurd (h.symm.trans hopen) (by decide)
    obtain ⟨-, hu, hv⟩ := ht.split ht' hclosed hclosed hrest
    rw [hb.nesting_unique hb' hw, ht.nesting_unique ht' hu,
      he.nesting_unique he' (List.cons.inj hv).2]
  | _, _, _, _, _, .loop hb hs, .loop hb' hs', heq => by
    obtain ⟨hw, hu⟩ := hb.split hb' (List.cons.inj (List.cons.inj heq).2).2
    rw [hb.nesting_unique hb' hw, hs.nesting_unique hs' hu]
  | _, _, _, _, _, .block hms, .block hms', heq => by
    rw [hms.nesting_unique hms' (List.append_cancel_right (List.cons.inj heq).2)]

private theorem DerivesStatements.nesting_unique : ∀ {u u' ms m n}, DerivesStatements u ms m →
    DerivesStatements u' ms n → u = u' → m = n
  | _, _, _, _, _, .nil, .nil, _ => rfl
  | _, _, _, _, _, .cons hs hms, .cons hs' hms', heq => by
    obtain ⟨-, hu, hw⟩ := hs.split hs' (fun _ ↦ head?_ne_else hms) (fun _ ↦ head?_ne_else hms') heq
    rw [hs.nesting_unique hs' hu, hms.nesting_unique hms' hw]

end

/-! ## Programs -/

private theorem DerivesStatements.tree_unique {w : List Terminal} {ms ms' : List Statement}
    {m n : Nat} (h : DerivesStatements w ms m) (h' : DerivesStatements w ms' n) : ms = ms' := by
  have hreads : ∀ {ms k}, DerivesStatements w ms k → k ≤ max m n →
      Rule.Repeats (Rule.memberItem (Rule.statement 0 (max m n)))
        ((Stream.ofTerminals [.separator "\x7d"]).prepend (Stream.ofTerminals w).tokens) ms
        (Stream.ofTerminals [.separator "\x7d"]) := fun h hk ↦
    Rule.repeatsAs_of_derives h 0 _ hk (Stream.map_terminal_ofTerminals w)
      (Rule.memberItem_eq_none_iff.mpr (.inl rfl))
  exact ((hreads h (Nat.le_max_left m n)).unique (Rule.progressive_memberItem _ _)
    (hreads h' (Nat.le_max_right m n))).1

theorem yields_declarations_of_derives {u v : List Terminal} {ds : List Declaration}
    {ms : List Statement} {n : Nat} (hds : DerivesDeclarations u ds)
    (hms : DerivesStatements v ms n) {w : List Token} {s : Stream} (hw : w.map Token.terminal = u)
    (hs : s.tokens.map Token.terminal = v ++ [.separator "\x7d", .endOfInput]) :
    Rule.declarations.Yields (s.prepend w) ds s := by
  obtain ⟨tokens, stop⟩ := s
  obtain ⟨ts, rest, rfl, rfl, hrest⟩ := List.map_eq_append_iff.mp hs
  obtain ⟨c, rest, rfl, hc, -⟩ := List.map_eq_cons_iff.mp hrest
  -- No type stands where the statements begin.
  have hnone : Rule.typeItem ((⟨c :: rest, stop⟩ : Stream).prepend ts).current = none := by
    rcases Rule.current_of_derivesStatements hms with hstart | heq
    · exact hstart.typeItem_eq_none
    · rw [heq, Rule.typeItem_eq_none_iff]
      exact fun ty h ↦ absurd (hc.symm.trans h) (by simp)
  obtain ⟨groups, rfl, hgroups⟩ := Rule.repeats_of_derivesDeclarations hds hw hnone
  exact Rule.yields_declarations.mpr ⟨groups, hgroups, rfl⟩

/-- **The grammar is unambiguous**, and so is the nesting of a program. -/
theorem DerivesProgram.unique {w : List Terminal} {p p' : Program} {m n : Nat}
    (h : DerivesProgram w p m) (h' : DerivesProgram w p' n) : p = p' ∧ m = n := by
  obtain @⟨u, v, ds, ms, m, hds, hms⟩ := h
  generalize hall : Terminal.keyword "main" :: _ = w at h'
  obtain @⟨u', v', ds', ms', n, hds', hms'⟩ := h'
  obtain ⟨rfl, rfl, hrest⟩ := split_unique
    (fun _ _ hw hs ↦ yields_declarations_of_derives hds hms hw hs)
    (fun _ _ hw hs ↦ yields_declarations_of_derives hds' hms' hw hs)
    (List.cons.inj (List.cons.inj hall).2).2
  obtain rfl := List.append_cancel_right hrest
  obtain rfl := hms.tree_unique hms'
  exact ⟨rfl, hms.nesting_unique hms' rfl⟩

end Grammar

end Kay
