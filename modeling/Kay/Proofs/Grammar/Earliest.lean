import Kay.Proofs.Grammar.Completion
import Kay.Proofs.Grammar.Limit
import Kay.Proofs.Grammar.Locality

/-!
# Errors are reported at the earliest token

An unexpected token is reported where it makes the text fail: the tokens in front of it are the
beginning of a program, with the token they are not (`unexpectedToken_earliest`). The first half is
what the rules expect. The second half holds because a run depends only on what it has seen: a
program that began with the same tokens would be read, under a limit that its nesting does not
exceed, by a run that fails at the same token.

What could stand at the token is shown as a text. It is put together from the wordings of the
alternatives alone (`Expectation.text_eq_join`), so what holds of them holds of all that is shown.
-/

namespace Kay

open Grammar

/-! ## How alternatives are shown -/

/-- What an expectation shows of one of its alternatives. A kind that stands alone goes by its
name. -/
def Expectation.wording : Expectation → Alternative → String
  | .one _, .kind k => k.name
  | _, a => a.phrase

private theorem intercalate_cons_eq_join (sep w : String) (ws : List String) :
    String.intercalate sep (w :: ws) = w ++ String.join (ws.map (sep ++ ·)) := by
  induction ws generalizing w with
  | nil => simp
  | cons v ws ih =>
    rw [String.intercalate_cons_cons, ih, List.map_cons, String.join_cons]
    simp only [String.append_assoc]

private theorem zipWith_comma (f : Alternative → String) (as : List Alternative) :
    List.zipWith (fun link a ↦ link ++ f a) (as.map fun _ ↦ ", ") as =
      (as.map f).map (", " ++ ·) := by
  rw [List.zipWith_map_left, List.zipWith_self, List.map_map]
  rfl

/-- An expectation that names alternatives shows each of them once, in order, and nothing besides
but what links them. -/
theorem Expectation.text_eq_join {e : Expectation} (h : e.alternatives ≠ []) :
    ∃ links : List String, links.length = e.alternatives.length ∧
      (∀ link ∈ links, link ∈ ["", ", ", " or "]) ∧
      e.text = String.join
        (List.zipWith (fun link a ↦ link ++ e.wording a) links e.alternatives) := by
  cases e with
  | phrase text => exact absurd rfl h
  | one a =>
    refine ⟨[""], rfl, by simp, ?_⟩
    cases a <;> simp [text, wording, alternatives]
  | anyOf as last =>
    -- The wordings do not depend on the expectation any more.
    have hwording : (anyOf as last).wording = Alternative.phrase := rfl
    rw [hwording, text, alternatives]
    cases as with
    | nil => exact ⟨[" or "], rfl, by simp, by simp⟩
    | cons a as =>
      refine ⟨"" :: (as.map (fun _ ↦ ", ") ++ [" or "]), by simp, by simp +contextual [or_imp], ?_⟩
      rw [List.map_cons, intercalate_cons_eq_join, List.cons_append, List.zipWith_cons_cons,
        List.zipWith_append (List.length_map _), zipWith_comma]
      simp [String.append_assoc]

/-! ## Where the end of input stands -/

namespace Grammar

theorem Atom.kind_ne {t : Terminal} {e : Expression} (h : Atom t e) : t.kind ≠ .endOfInput := by
  cases h <;> simp

theorem DerivesExpression.kind_ne {l : Level} {w : List Terminal} {e : Expression} {n : Nat}
    (h : DerivesExpression l w e n) : ∀ t ∈ w, t.kind ≠ .endOfInput := by
  induction h with
  | atom h => simpa using h.kind_ne
  | group _ ih => simpa [or_imp, forall_and] using ih
  | not _ ih => simpa using ih
  | operand _ _ ih => exact ih
  | chain _ _ _ _ ihe ihf | compare _ _ _ ihe ihf =>
    simpa [or_imp, forall_and] using ⟨ihe, ihf⟩

mutual

theorem DerivesStatement.kind_ne : ∀ {w r n}, DerivesStatement w r n →
    ∀ t ∈ w, t.kind ≠ .endOfInput
  | _, _, _, .skip => by simp
  | _, _, _, .assignment _ he => by simpa [or_imp, forall_and] using he.kind_ne
  | _, _, _, .ifThen hb ht => by
    simpa [or_imp, forall_and] using ⟨hb.kind_ne, ht.kind_ne⟩
  | _, _, _, .ifThenElse hb ht _ he => by
    simpa [or_imp, forall_and] using ⟨hb.kind_ne, ht.kind_ne, he.kind_ne⟩
  | _, _, _, .loop hb hs => by simpa [or_imp, forall_and] using ⟨hb.kind_ne, hs.kind_ne⟩
  | _, _, _, .block hms => by simpa [or_imp, forall_and] using hms.kind_ne

theorem DerivesStatements.kind_ne : ∀ {w ms n}, DerivesStatements w ms n →
    ∀ t ∈ w, t.kind ≠ .endOfInput
  | _, _, _, .nil => by simp
  | _, _, _, .cons hs hms => by simpa [or_imp, forall_and] using ⟨hs.kind_ne, hms.kind_ne⟩

end

theorem DerivesNames.kind_ne {ty : VarType} {w : List Terminal} {ds : List Declaration}
    (h : DerivesNames ty w ds) : ∀ t ∈ w, t.kind ≠ .endOfInput := by
  induction h with
  | last => simp
  | cons _ _ ih => simpa using ih

theorem DerivesDeclarations.kind_ne {w : List Terminal} {ds : List Declaration}
    (h : DerivesDeclarations w ds) : ∀ t ∈ w, t.kind ≠ .endOfInput := by
  induction h with
  | nil => simp
  | cons h _ ih => simpa [or_imp, forall_and] using ⟨h.kind_ne, ih⟩

/-- A program has the end of input as its last terminal, and nowhere else. -/
private theorem DerivesProgram.exists_append {w : List Terminal} {p : Program} {n : Nat}
    (h : DerivesProgram w p n) :
    ∃ v, w = v ++ [.endOfInput] ∧ ∀ t ∈ v, t.kind ≠ .endOfInput := by
  obtain @⟨u, v, ds, ms, n, hds, hms⟩ := h
  refine ⟨.keyword "main" :: .separator "\x7b" :: (u ++ (v ++ [.separator "\x7d"])), by simp, ?_⟩
  simpa [or_imp, forall_and] using ⟨hds.kind_ne, hms.kind_ne⟩

private theorem DerivesProgram.eq_nil_of_kind {u v : List Terminal} {t : Terminal} {p : Program}
    {n : Nat} (h : DerivesProgram (u ++ t :: v) p n) (ht : t.kind = .endOfInput) : v = [] := by
  obtain ⟨w, hw, hne⟩ := h.exists_append
  rcases List.eq_nil_or_concat v with rfl | ⟨v, x, rfl⟩
  · rfl
  · rw [List.concat_eq_append, ← List.cons_append, ← List.append_assoc] at hw
    obtain rfl := (List.append_inj' hw rfl).1
    exact absurd ht (hne t (by simp))

end Grammar

/-! ## Streams and their terminals -/

theorem toList_prepend (s : Stream) (ts : List Token) : (s.prepend ts).toList = ts ++ s.toList :=
  List.append_assoc _ _ _

theorem exists_toList_eq (s : Stream) : ∃ ts, s.toList = s.current :: ts := by
  obtain ⟨tokens, stop⟩ := s
  cases tokens with
  | nil => exact ⟨[], rfl⟩
  | cons t ts => exact ⟨ts ++ [.endOfInput stop], rfl⟩

theorem terminal_current_drop (s : Stream) (i : Nat) :
    (s.drop i).current.terminal = (s.tokens.map Token.terminal).getD i .endOfInput := by
  rw [Stream.current, Stream.drop, List.headD_eq_head?_getD, List.head?_drop,
    List.getD_eq_getElem?_getD, List.getElem?_map]
  cases s.tokens[i]? <;> rfl

theorem getD_append_endOfInput (v : List Terminal) (i : Nat) :
    (v ++ [Terminal.endOfInput]).getD i .endOfInput = v.getD i .endOfInput := by
  rw [List.getD_eq_getElem?_getD, List.getD_eq_getElem?_getD, List.getElem?_append]
  split
  · rfl
  · next h =>
    rw [List.getElem?_singleton, List.getElem?_eq_none (Nat.not_lt.mp h)]
    split <;> rfl

/-! ## The error -/

/-- Whether terminals are the beginning of a program, which may go on with any tokens and nest as
deeply as it likes. -/
def ViablePrefix (u : List Terminal) : Prop :=
  ∃ w, (∀ t ∈ w, t.Valid) ∧ ∃ p n, DerivesProgram (u ++ w) p n

section

variable {source : String} {context : Context} {expected : Expectation} {found : Token}

/-- A program that begins with the tokens up to the one where a run stopped can be put on a stream
on which the same run would stop. -/
private theorem agree_of_derives {s s' : Stream} {w : List Token} {u v : List Terminal} {m : Nat}
    (hw : s = s'.prepend w) (hs' : s' = s.drop m)
    (hu : u ++ [.endOfInput] = w.map Token.terminal ++ s'.current.terminal :: v)
    (hne : ∀ t ∈ u, t.kind ≠ .endOfInput) : Rule.Agree (m + 1) s (.ofTerminals u) := by
  intro i hi
  rw [terminal_current_drop (.ofTerminals u), Stream.map_terminal_ofTerminals,
    ← getD_append_endOfInput, hu, List.getD_eq_getElem?_getD]
  have hdrop : s.drop w.length = s' := by
    rw [hw, Stream.prepend, Stream.drop, List.drop_left]
  rcases Nat.lt_trichotomy i w.length with hlt | rfl | hgt
  · rw [terminal_current_drop, hw, Stream.tokens_prepend, List.map_append,
      List.getD_eq_getElem?_getD, List.getElem?_append_left (by simpa using hlt),
      List.getElem?_append_left (by simpa using hlt)]
  · rw [hdrop, List.getElem?_append_right (by simp)]
    simp
  · -- What is read behind the place is read at the end, so both streams are at their ends.
    have hlength : s'.tokens.length = w.length + s'.tokens.length - m := by
      conv_lhs => rw [hs', hw]
      rw [Stream.drop, List.length_drop, Stream.tokens_prepend, List.length_append]
    have hnil : s'.tokens = [] := List.length_eq_zero_iff.mp (by omega)
    have hend : s'.current.terminal = .endOfInput := by
      rw [Stream.current, hnil]
      rfl
    have hle : u.length ≤ w.length := by
      by_contra hlt
      have hget : (u ++ [.endOfInput])[w.length]? = some .endOfInput := by
        rw [hu, List.getElem?_append_right (by simp), hend]
        simp
      rw [List.getElem?_append_left (by omega)] at hget
      exact hne _ (List.mem_of_getElem? hget) rfl
    rw [← hu, List.getElem?_eq_none (by simp; omega), terminal_current_drop,
      List.getD_eq_getElem?_getD, hw, Stream.tokens_prepend, hnil,
      List.getElem?_eq_none (by simp; omega)]

/-- No program begins with the tokens up to one that is unexpected. -/
private theorem not_derives_of_fails {s s' : Stream} {w : List Token}
    (h : (Rule.program maxNesting).Fails s (.unexpectedToken context expected found) s')
    (hw : s = s'.prepend w) (v : List Terminal) (p : Program) (n : Nat) :
    ¬ DerivesProgram (w.map Token.terminal ++ s'.current.terminal :: v) p n := by
  intro hp
  obtain ⟨u, hu, hne⟩ := hp.exists_append
  -- The program is read by a run with room enough, which the limit does not stop.
  have hderives : DerivesProgram
      ((Stream.ofTerminals u).tokens.map Token.terminal ++ [.endOfInput]) p n := by
    rwa [Stream.map_terminal_ofTerminals, ← hu]
  obtain ⟨u', hread⟩ := Rule.yields_of_derivesProgram hderives (Nat.le_max_left n maxNesting)
  have hrun : Rule.program (max n maxNesting) s = Rule.program maxNesting s := by
    have hcuts := (Rule.alike_program (Nat.le_max_right n maxNesting)).cuts
      (Rule.Setting.fits_none (s := s))
    obtain ⟨hresult, -⟩ := h
    generalize Rule.program maxNesting s = o at hcuts hresult ⊢
    generalize Rule.program (max n maxNesting) s = o' at hcuts ⊢
    cases hcuts with
    | same => rfl
    | cut hdeep => exact absurd (hdeep.symm.trans hresult) (by simp)
  have haccounted := Rule.accounted_program maxNesting s
  have hagree := agree_of_derives hw (h.2.symm.trans haccounted.replays.rest_eq) hu.symm hne
  rw [← Outcome.reads, ← hrun] at hagree
  have hmirrors := (Rule.alike_program (Nat.le_refl _)).mirrors
    (Rule.Setting.fits_none (u := .ofTerminals u)) (hagree.mono (Rule.seen_le _))
  have hresult := hmirrors.result_eq
  rw [hread.1, hrun, h.1] at hresult
  exact absurd hresult (by simp [Except.toOption])

/-- **Errors are reported at the earliest token, with what could stand there.** Where an unexpected
token is reported, the tokens in front of it are the beginning of a program of the grammar, whatever
its nesting; the tokens up to it are not the beginning of any. Each of the alternatives that the
error names stands for some token, and with any token it stands for, the tokens in front of the
error are again the beginning of a program; with the end of input they are a whole one. -/
theorem unexpectedToken_earliest
    (h : parse source = .error (.unexpectedToken context expected found)) :
    ∃ k, (Token.scan source)[k]? = some found ∧
      ViablePrefix (((Token.scan source).take k).map Token.terminal) ∧
      (∀ v p n, ¬ DerivesProgram (((Token.scan source).take (k + 1)).map Token.terminal ++ v) p n) ∧
      expected.alternatives ≠ [] ∧ ∀ a ∈ expected.alternatives,
        (∃ t : Token, a.admits t = true ∧ t.terminal.Valid) ∧
        ∀ t : Token, a.admits t = true → t.terminal.Valid →
          ViablePrefix (((Token.scan source).take k).map Token.terminal ++ [t.terminal]) ∧
          (t.kind = .endOfInput → ∃ p n,
            DerivesProgram (((Token.scan source).take k).map Token.terminal ++ [t.terminal])
              p n) := by
  obtain ⟨s', hs'⟩ : ∃ s', s' = (Rule.program maxNesting (Stream.ofSource source)).rest := ⟨_, rfl⟩
  have hfails : (Rule.program maxNesting).Fails (Stream.ofSource source)
      (.unexpectedToken context expected found) s' := ⟨h, hs'.symm⟩
  have hfound : s'.current = found :=
    hs' ▸ (Rule.accounted_program maxNesting (Stream.ofSource source)).explains _ h
  have hexpects := Rule.completes_program maxNesting (Stream.scanned_ofSource source) _ _ _ _ hfails
  obtain ⟨w, hw, hstarts⟩ := hexpects.starts
  obtain ⟨ts, hts⟩ := exists_toList_eq s'
  have hscan : Token.scan source = w ++ found :: ts := by
    rw [← Stream.toList_ofSource, hw, toList_prepend, hts, hfound]
  have hbefore : (Token.scan source).take w.length = w := by rw [hscan, List.take_left]
  have hupto : (Token.scan source).take (w.length + 1) = w ++ [found] := by
    rw [hscan, List.take_length_add_append]
    rfl
  refine ⟨w.length, ?_, ?_, ?_, hexpects.alternatives_ne, fun a ha ↦ ⟨(hstarts a ha).1, ?_⟩⟩
  · rw [hscan, List.getElem?_append_right (Nat.le_refl _), Nat.sub_self, List.getElem?_cons_zero]
  · -- What is expected may stand there, so what is in front of it is the beginning of a program.
    obtain ⟨a, ha⟩ := List.exists_mem_of_ne_nil _ hexpects.alternatives_ne
    obtain ⟨⟨t, ht⟩, hviable⟩ := hstarts a ha
    obtain ⟨v, hv, hprogram⟩ := hviable t ht
    rw [hbefore]
    exact ⟨t.terminal :: v, valid_cons ht.2 hv, hprogram⟩
  · intro v p n hp
    rw [hupto, List.map_append, List.append_assoc, ← hfound] at hp
    exact not_derives_of_fails hfails hw v p n hp
  · intro t hadmits hvalid
    obtain ⟨v, hv, p, n, hp⟩ := (hstarts a ha).2 t ⟨hadmits, hvalid⟩
    rw [hbefore]
    refine ⟨⟨v, hv, p, n, by simpa using hp⟩, fun hend ↦ ?_⟩
    obtain rfl := hp.eq_nil_of_kind hend
    exact ⟨p, n, hp⟩

/-- A result is a given error if that can be checked. -/
private theorem eq_error_of_check {r : Except SyntaxError Program} {e : SyntaxError}
    (h : (match r with | .error e' => decide (e' = e) | .ok _ => false) = true) : r = .error e := by
  cases r with
  | error e' => rw [of_decide_eq_true h]
  | ok p => exact absurd h (by simp)

/-- A source in which an operand is missing. Where the semicolon stands, a literal may stand. -/
theorem unexpectedToken_earliest_operand :
    parse "main \x7b x := ; \x7d" =
      .error (.unexpectedToken .factor .factor ⟨.separator, ";", ⟨12, 13⟩⟩) ∧
    ∃ k, (Token.scan "main \x7b x := ; \x7d")[k]? = some ⟨.separator, ";", ⟨12, 13⟩⟩ ∧
      ViablePrefix (((Token.scan "main \x7b x := ; \x7d").take k).map Token.terminal ++
        [.literal "0"]) := by
  have hparse : parse "main \x7b x := ; \x7d" =
      .error (.unexpectedToken .factor .factor ⟨.separator, ";", ⟨12, 13⟩⟩) :=
    eq_error_of_check (by decide +kernel)
  obtain ⟨k, hk, -, -, -, halternatives⟩ := unexpectedToken_earliest hparse
  have hliteral := (halternatives (.kind .literal) (by decide)).2 ⟨.literal, "0", ⟨12, 13⟩⟩ rfl
    Terminal.valid_zero
  exact ⟨hparse, k, hk, hliteral.1⟩

end

end Kay
