import Kay.Grammar.Program
import Kay.Proofs.Grammar.Statement

/-!
# The parser accepts the grammar

Declarations and whole programs against the grammar, and with them the theorem that the parser is
the grammar: a source is the text of a program exactly if its tokens derive the program, with a
nesting that does not exceed the limit.

Declarations are the one place where the tree does not follow the text. The declarations that one
type governs are read as one item and only then joined, so the list of items is existential on the
way from a derivation to a run.
-/

namespace Kay

open Grammar

namespace Rule

variable {s s' : Stream} {ty : VarType}

/-! ## Names -/

theorem yields_declaredName {d : Declaration} : Yields (declaredName ty) s d s' ↔
    ∃ t, t.kind = .identifier ∧ s = s'.prepend [t] ∧ d = ⟨ty, ⟨t.text⟩⟩ := by
  rw [declaredName, yields_bind]
  constructor
  · rintro ⟨t, s₁, ht, h⟩
    obtain ⟨hkind, rfl⟩ := (yields_expect_kind (by decide)).mp ht
    have hpure := yields_report_bind.mp h
    obtain ⟨rfl, rfl⟩ := yields_pure.mp hpure
    exact ⟨t, hkind, rfl, rfl⟩
  · rintro ⟨t, hkind, rfl, rfl⟩
    exact ⟨t, s', (yields_expect_kind (by decide)).mpr ⟨hkind, rfl⟩,
      yields_report_bind.mpr (yields_pure.mpr ⟨rfl, rfl⟩)⟩

/-- One more name behind a comma, as `declaredNames` asks for it. -/
def nameItem (ty : VarType) : Token → Option (Rule Declaration) := fun t ↦
  if t.isSeparator "," then some (do
    let _ ← advance
    declaredName ty)
  else none

theorem nameItem_eq_none_iff {t : Token} :
    nameItem ty t = none ↔ t.terminal ≠ .separator "," := by
  rw [ne_eq, ← Token.is_iff, ← Token.isSeparator, nameItem]
  split <;> simp_all

theorem eq_of_nameItem_eq_some {item : Rule Declaration} {t : Token}
    (hitem : nameItem ty t = some item) :
    t.terminal = .separator "," ∧ item = advance >>= fun _ ↦ declaredName ty := by
  rw [nameItem] at hitem
  split at hitem
  · next ht => exact ⟨Token.is_iff.mp ht, (Option.some.inj hitem).symm⟩
  · exact absurd hitem (by simp)

theorem yields_nameItem {item : Rule Declaration} {d : Declaration} {t : Token}
    (hitem : nameItem ty t = some item) : t.terminal = .separator "," ∧
      (Yields item s d s' ↔ Yields (declaredName ty) s.advance d s') := by
  obtain ⟨hcomma, rfl⟩ := eq_of_nameItem_eq_some hitem
  exact ⟨hcomma, yields_advance_bind⟩

theorem advances_declaredName : Advances (declaredName ty) :=
  (advances_expect _ _).bind fun _ ↦ (advances_note _).bind fun _ ↦ advances_pure _

theorem progressive_nameItem : Progressive (nameItem ty) where
  length_lt := by
    intro s item d s' hitem hd
    obtain ⟨hcomma, hyields⟩ := yields_nameItem hitem
    have hlt := Stream.length_advance_lt ((Token.kind_eq hcomma).trans_ne (by simp))
    exact (advances_declaredName.length_le (hyields.mp hd)).trans_lt hlt
  endOfInput n := nameItem_eq_none_iff.mpr (by simp [Token.endOfInput, Token.terminal])

theorem yields_declaredNames {ds : List Declaration} : Yields (declaredNames ty) s ds s' ↔
    ∃ d s₁ others c, Yields (declaredName ty) s d s₁ ∧
      Repeats (nameItem ty) s₁ others (s'.prepend [c]) ∧ c.terminal = .separator ";" ∧
        ds = d :: others := by
  have hmany : ∀ {s s' others}, Yields (many (nameItem ty)) s others s' ↔
      Repeats (nameItem ty) s others s' := yields_many progressive_nameItem
  rw [declaredNames, yields_bind]
  constructor
  · rintro ⟨d, s₁, hd, h₁⟩
    obtain ⟨others, s₂, hothers, h₂⟩ := yields_bind.mp h₁
    obtain ⟨c, s₃, hread, hpure⟩ := yields_bind.mp h₂
    obtain ⟨rfl, rfl⟩ := yields_pure.mp hpure
    obtain ⟨hc, rfl⟩ := yields_expectSeparator.mp hread
    exact ⟨d, s₁, others, c, hd, hmany.mp hothers, hc, rfl⟩
  · rintro ⟨d, s₁, others, c, hd, hothers, hc, rfl⟩
    exact ⟨d, s₁, hd, yields_bind.mpr ⟨others, _, hmany.mpr hothers, yields_bind.mpr
      ⟨c, s', yields_expectSeparator.mpr ⟨hc, rfl⟩, yields_pure.mpr ⟨rfl, rfl⟩⟩⟩⟩

/-- The names that are read behind a first one. -/
theorem derivesNames_of_repeats {others : List Declaration}
    (h : Repeats (nameItem ty) s others s') (name : String) : ∃ w, s = s'.prepend w ∧
      DerivesNames ty (.identifier name :: w.map Token.terminal) (⟨ty, ⟨name⟩⟩ :: others) := by
  -- Each item holds a comma and the next name, so the name in front is carried along.
  induction h generalizing name with
  | stop => exact ⟨[], rfl, .last name⟩
  | @step s s₁ s' item d others hitem hd _ ih =>
    obtain ⟨hcomma, hyields⟩ := yields_nameItem hitem
    obtain ⟨t, hkind, hread, rfl⟩ := yields_declaredName.mp (hyields.mp hd)
    obtain ⟨w, rfl, hw⟩ := ih t.text
    have hne : s.current.kind ≠ .endOfInput := (Token.kind_eq hcomma).trans_ne (by simp)
    refine ⟨s.current :: t :: w, ?_, ?_⟩
    · exact Stream.eq_prepend_cons hne (by rw [hread, ← Stream.prepend_cons])
    · have hterminal : t.terminal = .identifier t.text := by rw [Token.terminal, hkind]
      rw [List.map_cons, List.map_cons, hcomma, hterminal]
      exact .cons name hw

private theorem repeats_of_derivesNames {u : List Terminal} {ds : List Declaration}
    (h : DerivesNames ty u ds) : ∀ ⦃w s'⦄, w.map Token.terminal = u →
      s'.current.terminal ≠ .separator "," → ∃ d s₁ others, ds = d :: others ∧
        Yields (declaredName ty) (s'.prepend w) d s₁ ∧ Repeats (nameItem ty) s₁ others s' := by
  induction h with
  | last name =>
    intro w s' hw hs'
    obtain ⟨t, rfl, ht⟩ := List.map_eq_singleton_iff.mp hw
    refine ⟨_, s', [], rfl, yields_declaredName.mpr ⟨t, Token.kind_eq ht, rfl, ?_⟩,
      .stop (nameItem_eq_none_iff.mpr hs')⟩
    rw [Token.text_eq ht]
  | cons name _ ih =>
    intro w s' hw hs'
    obtain ⟨t, w₁, rfl, ht, hw₁⟩ := List.map_eq_cons_iff.mp hw
    obtain ⟨c, w₂, rfl, hc, hw₂⟩ := List.map_eq_cons_iff.mp hw₁
    obtain ⟨d, s₁, others, rfl, hd, hothers⟩ := ih hw₂ hs'
    obtain ⟨item, hitem⟩ : ∃ item, nameItem ty c = some item :=
      Option.ne_none_iff_exists'.mp fun h ↦ nameItem_eq_none_iff.mp h hc
    have hrepeats : Repeats (nameItem ty) (s'.prepend (c :: w₂)) (d :: others) s' :=
      .step hitem ((yields_nameItem hitem).2.mpr hd) hothers
    refine ⟨_, s'.prepend (c :: w₂), d :: others, rfl, yields_declaredName.mpr
      ⟨t, Token.kind_eq ht, rfl, ?_⟩, hrepeats⟩
    rw [Token.text_eq ht]

/-! ## Declarations -/

/-- The declarations that one more type governs, as `declarations` asks for them. -/
def typeItem : Token → Option (Rule (List Declaration)) := fun t ↦
  (typeOf? t).map fun ty ↦ do
    let _ ← advance
    declaredNames ty

theorem typeOf?_eq_some_iff {t : Token} :
    typeOf? t = some ty ↔ t.terminal = .keyword ty.keyword := by
  rw [typeOf?, Token.terminal, Terminal.mk.injEq]
  split
  · next h => simp [h, VarType.ofKeyword?_eq_some_iff]
  · next h => simp [h]

theorem typeItem_eq_none_iff {t : Token} :
    typeItem t = none ↔ ∀ ty : VarType, t.terminal ≠ .keyword ty.keyword := by
  rw [typeItem, Option.map_eq_none_iff, Option.eq_none_iff_forall_ne_some]
  exact forall_congr' fun ty ↦ not_congr typeOf?_eq_some_iff

theorem StartsStatement.typeItem_eq_none {t : Token} (h : StartsStatement t.terminal) :
    typeItem t = none :=
  typeItem_eq_none_iff.mpr fun ty ↦ h.ne (by cases ty <;> decide) (by cases ty <;> decide)

theorem yields_typeItem {item : Rule (List Declaration)} {ds : List Declaration} {t : Token}
    (hitem : typeItem t = some item) : ∃ ty : VarType, t.terminal = .keyword ty.keyword ∧
      ∀ {s s'}, Yields item s ds s' ↔ Yields (declaredNames ty) s.advance ds s' := by
  obtain ⟨ty, hty, rfl⟩ := Option.map_eq_some_iff.mp hitem
  exact ⟨ty, typeOf?_eq_some_iff.mp hty, yields_advance_bind⟩

private theorem exists_typeItem {t : Token} (ht : t.terminal = .keyword ty.keyword) :
    ∃ item, typeItem t = some item ∧ ∀ {s ds s'}, Yields item s ds s' ↔
      Yields (declaredNames ty) s.advance ds s' :=
  ⟨_, by rw [typeItem, typeOf?_eq_some_iff.mpr ht, Option.map_some], yields_advance_bind⟩

theorem advances_declaredNames : Advances (declaredNames ty) := by
  refine advances_declaredName.bind fun _ ↦ (advances_many fun t item h ↦ ?_).bind fun _ ↦
    (advances_expect _ _).bind fun _ ↦ advances_pure _
  split at h
  · obtain rfl := Option.some.inj h
    exact advances_advance.bind fun _ ↦ advances_declaredName
  · exact absurd h (by simp)

theorem progressive_typeItem : Progressive typeItem where
  length_lt := by
    intro s item ds s' hitem hds
    obtain ⟨ty, hterminal, hyields⟩ := yields_typeItem hitem
    have hlt := Stream.length_advance_lt ((Token.kind_eq hterminal).trans_ne (by simp))
    exact (advances_declaredNames.length_le (hyields.mp hds)).trans_lt hlt
  endOfInput n := typeItem_eq_none_iff.mpr (by simp [Token.endOfInput, Token.terminal])

/-- What is read for one type can stand in front of other declarations. -/
theorem derives_of_yields_typeItem {item : Rule (List Declaration)} {ds : List Declaration}
    (hitem : typeItem s.current = some item) (hds : Yields item s ds s') :
    ∃ w, s = s'.prepend w ∧ ∀ v ds', DerivesDeclarations v ds' →
      DerivesDeclarations (w.map Token.terminal ++ v) (ds ++ ds') := by
  obtain ⟨ty, hterminal, hyields⟩ := yields_typeItem hitem
  obtain ⟨d, s₂, others, c, hd, hothers, hc, rfl⟩ := yields_declaredNames.mp (hyields.mp hds)
  obtain ⟨t, hkind, hread, rfl⟩ := yields_declaredName.mp hd
  obtain ⟨u, rfl, hu⟩ := derivesNames_of_repeats hothers t.text
  have hne : s.current.kind ≠ .endOfInput := (Token.kind_eq hterminal).trans_ne (by simp)
  refine ⟨s.current :: (t :: u ++ [c]), Stream.eq_prepend_cons hne ?_, fun v ds' hv ↦ ?_⟩
  · rw [hread]
    simp [Stream.prepend]
  · have ht : t.terminal = .identifier t.text := by rw [Token.terminal, hkind]
    rw [List.map_cons, List.map_append, List.map_cons, List.map_singleton, hterminal, ht, hc]
    simpa using DerivesDeclarations.cons hu hv

theorem derivesDeclarations_of_repeats {groups : List (List Declaration)}
    (h : Repeats typeItem s groups s') : ∃ w, s = s'.prepend w ∧
      DerivesDeclarations (w.map Token.terminal) groups.flatten := by
  induction h with
  | stop => exact ⟨[], rfl, .nil⟩
  | step hitem hds _ ih =>
    obtain ⟨u, rfl, hu⟩ := derives_of_yields_typeItem hitem hds
    obtain ⟨w, rfl, hw⟩ := ih
    refine ⟨u ++ w, (Stream.prepend_append ..).symm, ?_⟩
    rw [List.map_append, List.flatten_cons]
    exact hu _ _ hw

theorem repeats_of_derivesDeclarations {u : List Terminal} {ds : List Declaration}
    (h : DerivesDeclarations u ds) : ∀ ⦃w s'⦄, w.map Token.terminal = u →
      typeItem s'.current = none →
      ∃ groups, groups.flatten = ds ∧ Repeats typeItem (s'.prepend w) groups s' := by
  induction h with
  | nil =>
    intro w s' hw hs'
    obtain rfl := List.map_eq_nil_iff.mp hw
    exact ⟨[], rfl, .stop hs'⟩
  | @cons ty _ _ _ _ hnames _ ih =>
    intro w s' hw hs'
    obtain ⟨k, w₁, rfl, hk, hw₁⟩ := List.map_eq_cons_iff.mp hw
    obtain ⟨w₂, w₃, rfl, hw₂, hw₃⟩ := List.map_eq_append_iff.mp hw₁
    obtain ⟨c, w₄, rfl, hc, hw₄⟩ := List.map_eq_cons_iff.mp hw₃
    obtain ⟨groups, rfl, hgroups⟩ := ih hw₄ hs'
    -- The names end at the semicolon, whatever is declared behind it.
    have hcomma : (s'.prepend (c :: w₄)).current.terminal ≠ .separator "," := by
      rw [Stream.current_prepend_cons, hc]
      decide
    obtain ⟨d, s₁, others, rfl, hd, hothers⟩ := repeats_of_derivesNames hnames hw₂ hcomma
    obtain ⟨item, hitem, hyields⟩ := exists_typeItem hk
    refine ⟨(d :: others) :: groups, rfl, .step hitem (hyields.mpr ?_) hgroups⟩
    rw [Stream.advance_prepend_cons, Stream.prepend_append]
    exact yields_declaredNames.mpr ⟨d, s₁, others, c, hd, hothers, hc, rfl⟩

/-! ## Programs -/

theorem yields_declarations {ds : List Declaration} : Yields declarations s ds s' ↔
    ∃ groups, Repeats typeItem s groups s' ∧ ds = groups.flatten := by
  have hmany : ∀ {groups}, Yields (many typeItem) s groups s' ↔ Repeats typeItem s groups s' :=
    yields_many progressive_typeItem
  rw [declarations, bind_pure_comp, yields_map]
  exact exists_congr fun groups ↦ and_congr_left fun _ ↦ hmany

theorem yields_program {limit : Nat} {p : Program} : Yields (program limit) s p s' ↔
    ∃ (k o c : Token) (s₁ s₂ s₃ : Stream) (groups : List (List Declaration)) (ms : List Statement),
      k.terminal = .keyword "main" ∧ o.terminal = .separator "\x7b" ∧
      c.terminal = .separator "\x7d" ∧ s = s₁.prepend [k, o] ∧ Repeats typeItem s₁ groups s₂ ∧
      Repeats (memberItem (statement 0 limit)) s₂ ms (s₃.prepend [c]) ∧
      s₃.current.kind = .endOfInput ∧ s' = s₃.advance ∧ p = ⟨groups.flatten, ⟨ms⟩⟩ := by
  have hmembers : ∀ {s ms s'}, Yields (statements (statement 0 limit)) s ms s' ↔
      Repeats (memberItem (statement 0 limit)) s ms s' := yields_many (progressive_memberItem _ _)
  rw [program, programFrom, yields_report_bind, yields_bind]
  constructor
  · rintro ⟨k, s₀, hk, h₁⟩
    obtain ⟨o, s₁, ho, h₂⟩ := yields_bind.mp h₁
    obtain ⟨ds, s₂, hds, h₃⟩ := yields_bind.mp h₂
    obtain ⟨ms, s₄, hms, h₄⟩ := yields_bind.mp h₃
    obtain ⟨c, s₃, hc, h₅⟩ := yields_bind.mp h₄
    obtain ⟨t, s₅, ht, h₆⟩ := yields_bind.mp h₅
    have hpure := yields_report_bind.mp h₆
    obtain ⟨rfl, rfl⟩ := yields_pure.mp hpure
    obtain ⟨groups, hgroups, rfl⟩ := yields_declarations.mp hds
    obtain ⟨hend, -, rfl⟩ := yields_expect.mp ht
    obtain ⟨hk', rfl⟩ := (yields_expect_lexeme (by decide)).mp hk
    obtain ⟨ho', rfl⟩ := yields_expectSeparator.mp ho
    obtain ⟨hc', rfl⟩ := yields_expectSeparator.mp hc
    exact ⟨k, o, c, s₁, s₂, s₃, groups, ms, hk', ho', hc', rfl, hgroups, hmembers.mp hms,
      of_decide_eq_true hend, rfl, rfl⟩
  · rintro ⟨k, o, c, s₁, s₂, s₃, groups, ms, hk, ho, hc, rfl, hgs, hms, hend, rfl, rfl⟩
    refine ⟨k, s₁.prepend [o], (yields_expect_lexeme (by decide)).mpr ⟨hk, rfl⟩,
      yields_bind.mpr ⟨o, s₁, yields_expectSeparator.mpr ⟨ho, rfl⟩,
        yields_bind.mpr ⟨_, s₂, yields_declarations.mpr ⟨groups, hgs, rfl⟩,
          yields_bind.mpr ⟨ms, _, hmembers.mpr hms, yields_bind.mpr ⟨c, s₃, ?_,
            yields_bind.mpr ⟨s₃.current, s₃.advance, ?_, ?_⟩⟩⟩⟩⟩⟩
    · exact yields_expectSeparator.mpr ⟨hc, rfl⟩
    · exact yields_expect.mpr ⟨decide_eq_true hend, rfl, rfl⟩
    · exact yields_report_bind.mpr (yields_pure.mpr ⟨rfl, rfl⟩)

/-- What is read as a program is derived as one. -/
private theorem derivesProgram_of_yields {limit : Nat} {p : Program} (hs : s.Scanned)
    (h : Yields (program limit) s p s') :
    ∃ n, DerivesProgram (s.tokens.map Token.terminal ++ [.endOfInput]) p n ∧ n ≤ limit := by
  obtain ⟨k, o, c, s₁, s₂, s₃, groups, ms, hk, ho, hc, rfl, hgroups, hms, hend, -, rfl⟩ :=
    yields_program.mp h
  obtain ⟨u, rfl, hu⟩ := derivesDeclarations_of_repeats hgroups
  obtain ⟨w, n, rfl, hw, hn⟩ :=
    derives_of_repeats_members (readsStatement_statement 0 limit) hms hs.of_prepend.of_prepend
  -- No token of a text is an end of input, so nothing is left where one is read.
  have hnil := hs.of_prepend.of_prepend.of_prepend.of_prepend.tokens_eq_nil hend
  refine ⟨n, ?_, hn⟩
  simpa [hnil, hk, ho, hc] using DerivesProgram.intro hu hw

/-- What is derived as a program is read as one. -/
theorem yields_of_derivesProgram {limit n : Nat} {p : Program}
    (h : DerivesProgram (s.tokens.map Token.terminal ++ [.endOfInput]) p n) (hn : n ≤ limit) :
    ∃ s', Yields (program limit) s p s' := by
  generalize hall : s.tokens.map Token.terminal ++ [.endOfInput] = v at h
  obtain @⟨u, w, ds, ms, n, hds, hms⟩ := h
  have htokens : s.tokens.map Token.terminal =
      .keyword "main" :: .separator "\x7b" :: (u ++ (w ++ [.separator "\x7d"])) := by
    refine List.append_cancel_right (hall.trans ?_)
    simp
  obtain ⟨k, w₁, hs, hk, hw₁⟩ := List.map_eq_cons_iff.mp htokens
  obtain ⟨o, w₂, rfl, ho, hw₂⟩ := List.map_eq_cons_iff.mp hw₁
  obtain ⟨w₃, w₄, rfl, hw₃, hw₄⟩ := List.map_eq_append_iff.mp hw₂
  obtain ⟨w₅, w₆, rfl, hw₅, hw₆⟩ := List.map_eq_append_iff.mp hw₄
  obtain ⟨c, rfl, hc⟩ := List.map_eq_singleton_iff.mp hw₆
  have hread : s = (((⟨[c], s.stop⟩ : Stream).prepend w₅).prepend w₃).prepend [k, o] := by
    obtain ⟨tokens, stop⟩ := s
    subst hs
    simp [Stream.prepend]
  have hmembers : Repeats (memberItem (statement 0 limit)) ((⟨[c], s.stop⟩ : Stream).prepend w₅) ms
      (⟨[c], s.stop⟩ : Stream) :=
    repeatsAs_of_derives hms 0 limit hn hw₅ (memberItem_eq_none_iff.mpr (.inl hc))
  have hbody : typeItem ((⟨[c], s.stop⟩ : Stream).prepend w₅).current = none := by
    rcases current_of_derivesStatements (hw₅.symm ▸ hms) with hstart | heq
    · exact hstart.typeItem_eq_none
    · rw [heq, typeItem_eq_none_iff]
      exact fun ty h ↦ absurd (hc.symm.trans h) (by simp)
  obtain ⟨groups, rfl, hgroups⟩ := repeats_of_derivesDeclarations hds hw₃ hbody
  exact ⟨_, yields_program.mpr ⟨k, o, c, _, _, ⟨[], s.stop⟩, groups, ms, hk, ho, hc, hread, hgroups,
    hmembers, rfl, rfl, rfl⟩⟩

end Rule

/-! ## The parser -/

theorem parseWithin_maxNesting (source : String) : parseWithin maxNesting source = parse source :=
  rfl

theorem parseWithin_eq_ok_iff_yields {limit : Nat} {source : String} {p : Program} :
    parseWithin limit source = .ok p ↔
      ∃ s', (Rule.program limit).Yields (Stream.ofSource source) p s' :=
  ⟨fun h ↦ ⟨_, h, rfl⟩, fun ⟨_, h, _⟩ ↦ h⟩

theorem map_terminal_ofSource (source : String) :
    (Stream.ofSource source).tokens.map Token.terminal = terminals source.toList :=
  map_terminal_place 0 _

/-- Under any limit, the sources that are accepted are those that the grammar derives with a nesting
within the limit. -/
theorem parseWithin_eq_ok_iff_derives {limit : Nat} {source : String} {p : Program} :
    parseWithin limit source = .ok p ↔
      ∃ n, DerivesProgram ((Token.scan source).map Token.terminal) p n ∧ n ≤ limit := by
  rw [parseWithin_eq_ok_iff_yields, map_terminal_scan, ← map_terminal_ofSource]
  constructor
  · rintro ⟨s', h⟩
    exact Rule.derivesProgram_of_yields (Stream.scanned_ofSource source) h
  · rintro ⟨n, h, hn⟩
    exact Rule.yields_of_derivesProgram h hn

/-- Which program a source holds, if any, depends on its terminals alone. -/
theorem parse_eq_ok_iff_of_map_terminal_eq {source source' : String} {p : Program}
    (h : (Token.scan source).map Token.terminal = (Token.scan source').map Token.terminal) :
    parse source = .ok p ↔ parse source' = .ok p := by
  rw [← parseWithin_maxNesting, ← parseWithin_maxNesting, parseWithin_eq_ok_iff_derives,
    parseWithin_eq_ok_iff_derives, h]

/-- The parser accepts exactly its grammar, up to the limit on nesting, and builds the tree that the
grammar derives. -/
theorem parse_eq_ok_iff_derives (source : String) (p : Program) : parse source = .ok p ↔
    ∃ n, DerivesProgram ((Token.scan source).map Token.terminal) p n ∧ n ≤ maxNesting :=
  parseWithin_eq_ok_iff_derives

end Kay
