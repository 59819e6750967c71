import Kay.Proofs.Grammar.Unambiguous

/-!
# First tokens

The tree of a program does not know where it was read, so what is the first token of a statement is
a question to the tokens. `Begins` is the grammar of statements over tokens, with the first tokens
of the statements as a third part, in the order of the text. The levels of the statements in the
same order are a matter of the tree alone (`Statement.levels`).
-/

namespace Kay

open Grammar

/-! ## Statements in the order of the text -/

namespace Statement

mutual

/-- The level of a statement and of the statements in it, in the order in which they begin, where
the statement itself is at level `n`. -/
def levels : Statement → Nat → List Nat
  | skip, n | assignment _ _, n => [n]
  | conditional _ thenBranch none, n => n :: thenBranch.levels (n + 1)
  | conditional _ thenBranch (some elseBranch), n =>
    n :: (thenBranch.levels (n + 1) ++ elseBranch.levels (n + 1))
  | loop _ body, n => n :: body.levels (n + 1)
  | block members, n => n :: levelsOf members (n + 1)

/-- The levels of statements in sequence and of the statements in them. -/
def levelsOf : List Statement → Nat → List Nat
  | [], _ => []
  | m :: ms, n => m.levels n ++ levelsOf ms n

end

theorem levels_eq_cons (r : Statement) (n : Nat) : r.levels n = n :: (r.levels n).tail := by
  fun_cases levels r n <;> rfl

end Statement

namespace Grammar

/-- Whether tokens are the keyword of a composite statement and its test in parentheses. -/
def Guards (word : String) (w : List Token) (b : Expression) : Prop :=
  ∃ u n, w.map Token.terminal = .keyword word :: .separator "(" :: (u ++ [.separator ")"]) ∧
    DerivesExpression .disjunction u b n

mutual

/-- `Begins w r ts`: the tokens `w` stand for the statement `r`, and `ts` are the first tokens of
`r` and of the statements in it, in the order of the text. -/
inductive Begins : List Token → Statement → List Token → Prop
  | skip {t : Token} (ht : t.terminal = .separator ";") : Begins [t] .skip [t]
  | assignment {x a c : Token} {w : List Token} {name : String} {e : Expression} {n : Nat}
      (hx : x.terminal = .identifier name) (ha : a.terminal = .operator ":=")
      (he : DerivesExpression .disjunction (w.map Token.terminal) e n)
      (hc : c.terminal = .separator ";") :
      Begins (x :: a :: (w ++ [c])) (.assignment ⟨name⟩ e) [x]
  | ifThen {k : Token} {w u ts : List Token} {b : Expression} {t : Statement}
      (hb : Guards "if" (k :: w) b) (ht : Begins u t ts) :
      Begins (k :: (w ++ u)) (.conditional b t none) (k :: ts)
  | ifThenElse {k l : Token} {w u v ts us : List Token} {b : Expression} {t e : Statement}
      (hb : Guards "if" (k :: w) b) (ht : Begins u t ts) (hopen : t.endsWithOpenIf = false)
      (hl : l.terminal = .keyword "else") (he : Begins v e us) :
      Begins (k :: (w ++ (u ++ l :: v))) (.conditional b t (some e)) (k :: (ts ++ us))
  | loop {k : Token} {w u ts : List Token} {b : Expression} {t : Statement}
      (hb : Guards "while" (k :: w) b) (ht : Begins u t ts) :
      Begins (k :: (w ++ u)) (.loop b t) (k :: ts)
  | block {o c : Token} {w ts : List Token} {ms : List Statement}
      (ho : o.terminal = .separator "\x7b") (hms : BeginAll w ms ts)
      (hc : c.terminal = .separator "\x7d") : Begins (o :: (w ++ [c])) (.block ms) (o :: ts)

/-- `BeginAll w ms ts`: the tokens `w` stand for the statements `ms` in sequence, and `ts` are the
first tokens of these and of the statements in them, in the order of the text. -/
inductive BeginAll : List Token → List Statement → List Token → Prop
  | nil : BeginAll [] [] []
  | cons {u w ts us : List Token} {r : Statement} {ms : List Statement} (hr : Begins u r ts)
      (hms : BeginAll w ms us) : BeginAll (u ++ w) (r :: ms) (ts ++ us)

end

/-- `BeginsProgram w p ts`: the tokens `w` stand for the program `p`, in front of the end of input,
and `ts` are the first tokens of the statements in it. -/
inductive BeginsProgram : List Token → Program → List Token → Prop
  | intro {k o c : Token} {u w ts : List Token} {ds : List Declaration} {ms : List Statement}
      (hk : k.terminal = .keyword "main") (ho : o.terminal = .separator "\x7b")
      (hds : DerivesDeclarations (u.map Token.terminal) ds) (hms : BeginAll w ms ts)
      (hc : c.terminal = .separator "\x7d") :
      BeginsProgram (k :: o :: (u ++ (w ++ [c]))) ⟨ds, ⟨ms⟩⟩ ts

mutual

/-- Every statement has a first token. -/
theorem Begins.length_eq : ∀ {w r ts} (n : Nat), Begins w r ts → ts.length = (r.levels n).length
  | _, _, _, _, .skip _ | _, _, _, _, .assignment _ _ _ _ => rfl
  | _, _, _, n, .ifThen _ ht => congrArg (· + 1) (ht.length_eq (n + 1))
  | _, _, _, n, .ifThenElse _ ht _ _ he => by
    rw [Statement.levels, List.length_cons, List.length_cons, List.length_append,
      List.length_append, ht.length_eq (n + 1), he.length_eq (n + 1)]
  | _, _, _, n, .loop _ ht => congrArg (· + 1) (ht.length_eq (n + 1))
  | _, _, _, n, .block _ hms _ => congrArg (· + 1) (hms.length_eq (n + 1))

theorem BeginAll.length_eq : ∀ {w ms ts} (n : Nat), BeginAll w ms ts →
    ts.length = (Statement.levelsOf ms n).length
  | _, _, _, _, .nil => rfl
  | _, _, _, n, .cons hr hms => by
    rw [Statement.levelsOf, List.length_append, List.length_append, hr.length_eq n,
      hms.length_eq n]

end

theorem BeginsProgram.length_eq {w ts : List Token} {p : Program} (n : Nat)
    (h : BeginsProgram w p ts) : ts.length = (Statement.levelsOf p.body.members n).length := by
  cases h with
  | intro _ _ _ hms _ => exact hms.length_eq n

/-! ## The grammar -/

private theorem Guards.exists_map_append {word : String} {w : List Token} {b : Expression}
    (h : Guards word w b) : ∃ u n, DerivesExpression .disjunction u b n ∧ ∀ v : List Token,
      (w ++ v).map Token.terminal =
        .keyword word :: .separator "(" :: (u ++ .separator ")" :: v.map Token.terminal) := by
  obtain ⟨u, n, hw, hu⟩ := h
  refine ⟨u, n, hu, fun v ↦ ?_⟩
  rw [List.map_append, hw, List.cons_append, List.cons_append, List.append_assoc]
  rfl

mutual

/-- What has first tokens is derived. -/
theorem Begins.exists_derives : ∀ {w r ts}, Begins w r ts →
    ∃ n, DerivesStatement (w.map Token.terminal) r n
  | _, _, _, .skip ht => ⟨1, by
    rw [List.map_singleton, ht]
    exact .skip⟩
  | _, _, _, .assignment hx ha he hc => ⟨_, by
    rw [List.map_cons, List.map_cons, List.map_append, List.map_singleton, hx, ha, hc]
    exact .assignment _ he⟩
  | _, _, _, .ifThen hb ht => by
    obtain ⟨u, m, hu, hmap⟩ := hb.exists_map_append
    obtain ⟨n, ht⟩ := ht.exists_derives
    refine ⟨max m n + 1, ?_⟩
    rw [← List.cons_append, hmap]
    exact .ifThen hu ht
  | _, _, _, .ifThenElse hb ht hopen hl he => by
    obtain ⟨u, m, hu, hmap⟩ := hb.exists_map_append
    obtain ⟨n, ht⟩ := ht.exists_derives
    obtain ⟨k, he⟩ := he.exists_derives
    refine ⟨max m (max n k) + 1, ?_⟩
    rw [← List.cons_append, hmap, List.map_append, List.map_cons, hl]
    exact .ifThenElse hu ht hopen he
  | _, _, _, .loop hb ht => by
    obtain ⟨u, m, hu, hmap⟩ := hb.exists_map_append
    obtain ⟨n, ht⟩ := ht.exists_derives
    refine ⟨max m n + 1, ?_⟩
    rw [← List.cons_append, hmap]
    exact .loop hu ht
  | _, _, _, .block ho hms hc => by
    obtain ⟨n, hms⟩ := hms.exists_derives
    refine ⟨n + 1, ?_⟩
    rw [List.map_cons, List.map_append, List.map_singleton, ho, hc]
    exact .block hms

theorem BeginAll.exists_derives : ∀ {w ms ts}, BeginAll w ms ts →
    ∃ n, DerivesStatements (w.map Token.terminal) ms n
  | _, _, _, .nil => ⟨0, .nil⟩
  | _, _, _, .cons hr hms => by
    obtain ⟨m, hr⟩ := hr.exists_derives
    obtain ⟨n, hms⟩ := hms.exists_derives
    refine ⟨max m n, ?_⟩
    rw [List.map_append]
    exact .cons hr hms

end

theorem BeginsProgram.exists_derives {w ts : List Token} {p : Program}
    (h : BeginsProgram w p ts) :
    ∃ n, DerivesProgram (w.map Token.terminal ++ [.endOfInput]) p n := by
  obtain ⟨hk, ho, hds, hms, hc⟩ := h
  obtain ⟨n, hms⟩ := hms.exists_derives
  exact ⟨n, by simpa [hk, ho, hc] using DerivesProgram.intro hds hms⟩

/-! ## First tokens are unique -/

/-- Tokens whose terminals can be cut in one way can be cut in one way. -/
private theorem append_inj_of_map {u u' v v' : List Token} (heq : u ++ v = u' ++ v')
    (hmap : u.map Token.terminal = u'.map Token.terminal) : u = u' ∧ v = v' :=
  List.append_inj heq (by simpa using congrArg List.length hmap)

theorem Guards.split {word word' : String} {u u' v v' : List Token} {b b' : Expression}
    (h : Guards word u b) (h' : Guards word' u' b') (heq : u ++ v = u' ++ v') :
    u = u' ∧ v = v' := by
  obtain ⟨w, m, hw, hmap⟩ := h.exists_map_append
  obtain ⟨w', n, hw', hmap'⟩ := h'.exists_map_append
  have hterminals := congrArg (List.map Token.terminal) heq
  rw [hmap, hmap'] at hterminals
  obtain ⟨-, hv⟩ := hw.split hw' (List.cons.inj (List.cons.inj hterminals).2).2
  exact List.append_inj' heq (by simpa using congrArg List.length hv)

theorem Begins.split {u u' v v' ts ts' : List Token} {r r' : Statement} (h : Begins u r ts)
    (h' : Begins u' r' ts')
    (hv : r.endsWithOpenIf = true → (v.map Token.terminal).head? ≠ some (.keyword "else"))
    (hv' : r'.endsWithOpenIf = true → (v'.map Token.terminal).head? ≠ some (.keyword "else"))
    (heq : u ++ v = u' ++ v') : u = u' ∧ v = v' := by
  obtain ⟨m, h⟩ := h.exists_derives
  obtain ⟨n, h'⟩ := h'.exists_derives
  have hterminals := congrArg (List.map Token.terminal) heq
  rw [List.map_append, List.map_append] at hterminals
  exact append_inj_of_map heq (h.split h' hv hv' hterminals).2.1

private theorem BeginAll.head?_ne_else {w ts : List Token} {ms : List Statement}
    (h : BeginAll w ms ts) :
    (w.map Token.terminal).head? ≠ some (.keyword "else") := by
  obtain ⟨n, h⟩ := h.exists_derives
  exact Grammar.head?_ne_else h

mutual

theorem Begins.unique : ∀ {w w' r ts ts'}, Begins w r ts → Begins w' r ts' → w = w' → ts = ts'
  | _, _, _, _, _, .skip _, .skip _, heq => heq
  | _, _, _, _, _, .assignment _ _ _ _, .assignment _ _ _ _, heq => by
    rw [(List.cons.inj heq).1]
  | _, _, _, _, _, .ifThen hb ht, .ifThen hb' ht', heq => by
    obtain ⟨hw, hu⟩ := hb.split hb' heq
    rw [(List.cons.inj hw).1, ht.unique ht' hu]
  | _, _, _, _, _, .ifThenElse hb ht hopen _ he, .ifThenElse hb' ht' _ _ he', heq => by
    obtain ⟨hw, hrest⟩ := hb.split hb' heq
    have hclosed : ∀ {P : Prop}, _ = true → P := fun h ↦ absurd (h.symm.trans hopen) (by decide)
    obtain ⟨hu, hv⟩ := ht.split ht' hclosed hclosed hrest
    rw [(List.cons.inj hw).1, ht.unique ht' hu, he.unique he' (List.cons.inj hv).2]
  | _, _, _, _, _, .loop hb ht, .loop hb' ht', heq => by
    obtain ⟨hw, hu⟩ := hb.split hb' heq
    rw [(List.cons.inj hw).1, ht.unique ht' hu]
  | _, _, _, _, _, .block _ hms _, .block _ hms' _, heq => by
    obtain ⟨ho, htail⟩ := List.cons.inj heq
    rw [ho, hms.unique hms' (List.append_inj' htail rfl).1]

theorem BeginAll.unique : ∀ {w w' ms ts ts'}, BeginAll w ms ts → BeginAll w' ms ts' → w = w' →
    ts = ts'
  | _, _, _, _, _, .nil, .nil, _ => rfl
  | _, _, _, _, _, .cons hr hms, .cons hr' hms', heq => by
    obtain ⟨hu, hw⟩ := hr.split hr' (fun _ ↦ hms.head?_ne_else) (fun _ ↦ hms'.head?_ne_else) heq
    rw [hr.unique hr' hu, hms.unique hms' hw]

end

/-- The first tokens of the statements of a program are determined by its tokens. -/
theorem BeginsProgram.unique {w ts ts' : List Token} {p : Program} (h : BeginsProgram w p ts)
    (h' : BeginsProgram w p ts') : ts = ts' := by
  obtain @⟨k, o, c, u, v, ts, ds, ms, -, -, hds, hms, hc⟩ := h
  generalize hall : k :: o :: (u ++ (v ++ [c])) = w at h'
  obtain @⟨k', o', c', u', v', ts', _, _, -, -, hds', hms', hc'⟩ := h'
  have hrest : u ++ (v ++ [c]) = u' ++ (v' ++ [c']) := (List.cons.inj (List.cons.inj hall).2).2
  have hterminals := congrArg (fun w ↦ w.map Token.terminal ++ [Terminal.endOfInput]) hrest
  simp only [List.map_append, List.map_singleton, hc, hc', List.append_assoc,
    List.singleton_append] at hterminals
  obtain ⟨m, hderives⟩ := hms.exists_derives
  obtain ⟨n, hderives'⟩ := hms'.exists_derives
  obtain ⟨-, hu, -⟩ := split_unique
    (fun _ _ hw hs ↦ yields_declarations_of_derives hds hderives hw hs)
    (fun _ _ hw hs ↦ yields_declarations_of_derives hds' hderives' hw hs) hterminals
  obtain ⟨rfl, hv⟩ := append_inj_of_map hrest hu
  exact hms.unique hms' (List.append_inj' hv rfl).1

end Grammar

end Kay
