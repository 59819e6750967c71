import Kay.Token.Lexeme
import Mathlib.Data.List.TakeWhile

/-!
# The lexical grammar

What a token may look like, and what may stand between tokens, said without a scanner: the texts
that are admissible for a kind (`Admissible`), the stretches that separate tokens (`Gap`,
`FinalGap`), and the rule that a token is as long as possible (`IsLongest`).

The scanner is then placed against these notions one lexeme at a time. `Lexeme.first?_eq_some_iff`
says all there is to say about one step: the gap it skips is a gap, and the lexeme it takes is the
longest one where the gap ends. That nothing longer is admissible needs no search: admissible texts
fall into three families that their first character tells apart (`Admissible.family`), so whether a
text is the longest one is decided by the character behind it (`Admissible.isLongest`).
-/

namespace Kay

open Text

/-! ## Classes of characters

Letters, digits and white space do not overlap. The tables are long, so this is checked over the
short one of each two. -/

private theorem Text.CodePoints.contains_eq_false {s t : CodePoints} {c : Char}
    (hall : ∀ r ∈ s.ranges, ∀ n ∈ List.range' r.1 (r.2 + 1 - r.1), within n t.ranges = false)
    (h : s.contains c = true) : t.contains c = false := by
  obtain ⟨r, hr, hlo, hhi⟩ := (CodePoints.contains_iff _ _).mp h
  exact hall r hr c.toNat (List.mem_range'_1.mpr ⟨hlo, by omega⟩)

private theorem isLetter_eq_false_of_isBlank {c : Char} (h : isBlank c = true) :
    isLetter c = false :=
  CodePoints.contains_eq_false (by decide +kernel) h

private theorem isDecimalDigit_eq_false_of_isBlank {c : Char} (h : isBlank c = true) :
    isDecimalDigit c = false :=
  CodePoints.contains_eq_false (by decide +kernel) h

private theorem isAsciiDigit_iff {c : Char} :
    isAsciiDigit c = true ↔ 48 ≤ c.toNat ∧ c.toNat ≤ 57 := by
  rw [isAsciiDigit, Bool.and_eq_true, decide_eq_true_eq, decide_eq_true_eq]
  exact Iff.rfl

private theorem isDecimalDigit_of_isAsciiDigit {c : Char} (h : isAsciiDigit c = true) :
    isDecimalDigit c = true :=
  (CodePoints.contains_iff _ _).mpr ⟨(48, 57), by decide, isAsciiDigit_iff.mp h⟩

theorem isLetter_eq_false_of_isAsciiDigit {c : Char} (h : isAsciiDigit c = true) :
    isLetter c = false := by
  have hall : ∀ n ∈ List.range' 48 10, within n letters.ranges = false := by decide +kernel
  obtain ⟨hlo, hhi⟩ := isAsciiDigit_iff.mp h
  exact hall c.toNat (List.mem_range'_1.mpr ⟨hlo, by omega⟩)

namespace Lexeme

theorem isWordChar_eq_false_of_isBlank {c : Char} (h : isBlank c = true) :
    isWordChar c = false := by
  rw [isWordChar, isLetter_eq_false_of_isBlank h, isDecimalDigit_eq_false_of_isBlank h,
    Bool.or_self]

private theorem isWordChar_of_isLetter {c : Char} (h : isLetter c = true) :
    isWordChar c = true := by
  rw [isWordChar, h, Bool.true_or]

theorem isWordChar_of_isAsciiDigit {c : Char} (h : isAsciiDigit c = true) :
    isWordChar c = true := by
  rw [isWordChar, isDecimalDigit_of_isAsciiDigit h, Bool.or_true]

end Lexeme

open Lexeme

private theorem isBlank_eq_false_of_isWordChar {c : Char} (h : isWordChar c = true) :
    isBlank c = false := by
  rw [← Bool.not_eq_true]
  intro hb
  exact absurd h (ne_true_of_eq_false (isWordChar_eq_false_of_isBlank hb))

/-! ## Admissible texts -/

/-- A word: a letter, and behind it letters and decimal digits. -/
def IsWord (text : List Char) : Prop :=
  ∃ c cs, text = c :: cs ∧ isLetter c = true ∧ ∀ d ∈ cs, isWordChar d = true

/-- An identifier: a word that is not reserved. -/
def IsIdentifier (text : List Char) : Prop :=
  IsWord text ∧ isKeyword (String.ofList text) = false

/-- The texts that a token of a kind may have. The end of input has no text in the source. -/
inductive Admissible : TokenKind → List Char → Prop
  | identifier {text : List Char} (h : IsIdentifier text) : Admissible .identifier text
  | keyword {text : List Char} (h : String.ofList text ∈ keywords) : Admissible .keyword text
  | literal {text : List Char} (hne : text ≠ []) (h : ∀ c ∈ text, isAsciiDigit c = true) :
      Admissible .literal text
  | operator {text : List Char} (h : String.ofList text ∈ operators) : Admissible .operator text
  | separator {text : List Char} (h : String.ofList text ∈ separators) : Admissible .separator text
  /-- Any one character that starts nothing else. -/
  | other {c : Char} (hblank : isBlank c = false) (hletter : isLetter c = false)
      (hdigit : isAsciiDigit c = false) (hop : String.ofList [c] ∉ operators)
      (hsep : String.ofList [c] ∉ separators) : Admissible .other [c]

namespace Admissible

variable {text : String}

theorem of_mem_keywords (h : text ∈ keywords) : Admissible .keyword text.toList :=
  .keyword (by rwa [String.ofList_toList])

theorem of_mem_operators (h : text ∈ operators) : Admissible .operator text.toList :=
  .operator (by rwa [String.ofList_toList])

theorem of_mem_separators (h : text ∈ separators) : Admissible .separator text.toList :=
  .separator (by rwa [String.ofList_toList])

end Admissible

theorem isWord_of_mem_keywords {text : List Char} (h : String.ofList text ∈ keywords) :
    IsWord text := by
  have hall : ∀ w ∈ keywords, w.toList ≠ [] ∧ w.toList.head?.all isLetter = true ∧
      w.toList.tail.all isWordChar = true := by decide +kernel
  obtain ⟨hne, hhead, htail⟩ := hall _ h
  rw [String.toList_ofList] at hne hhead htail
  cases text with
  | nil => exact absurd rfl hne
  | cons c cs => exact ⟨c, cs, rfl, by simpa using hhead, by simpa using htail⟩

/-- A sign of either table has one character or two, none of them a letter, a digit or white
space. -/
theorem sign_cases {text : List Char}
    (h : String.ofList text ∈ operators ∨ String.ofList text ∈ separators) :
    ∃ c cs, text = c :: cs ∧ isLetter c = false ∧ isAsciiDigit c = false ∧ isBlank c = false ∧
      (cs = [] ∨ ∃ d, cs = [d] ∧ isPair c d = true) := by
  have hop : ∀ o ∈ operators, o.toList.length = 1 ∨ o.toList.length = 2 := by decide
  have hsep : ∀ o ∈ separators, o.toList.length = 1 := by decide
  have hall : ∀ o ∈ operators ++ separators, o.toList.all fun c ↦
      !isLetter c && !isAsciiDigit c && !isBlank c := by decide +kernel
  have hclass := hall _ (List.mem_append.mpr h)
  rw [String.toList_ofList] at hclass
  rcases h with h | h
  · have hlen := hop _ h
    rw [String.toList_ofList] at hlen
    match text, hlen with
    | [c], _ => exact ⟨c, [], rfl, by simpa [and_assoc] using hclass⟩
    | [c, d], _ =>
      refine ⟨c, [d], rfl, ?_⟩
      simp only [List.all_cons, Bool.and_eq_true, Bool.not_eq_true'] at hclass
      exact ⟨hclass.1.1.1, hclass.1.1.2, hclass.1.2, .inr ⟨d, rfl, decide_eq_true h⟩⟩
  · have hlen := hsep _ h
    rw [String.toList_ofList] at hlen
    match text, hlen with
    | [c], _ => exact ⟨c, [], rfl, by simpa [and_assoc] using hclass⟩

/-- The three families of admissible texts, told apart by the first character. -/
theorem Admissible.family {kind : TokenKind} {text : List Char} (h : Admissible kind text) :
    ∃ c cs, text = c :: cs ∧ isBlank c = false ∧
      ((isLetter c = true ∧ ∀ d ∈ cs, isWordChar d = true) ∨
        (isAsciiDigit c = true ∧ ∀ d ∈ cs, isAsciiDigit d = true) ∨
        (isLetter c = false ∧ isAsciiDigit c = false ∧
          (cs = [] ∨ ∃ d, cs = [d] ∧ isPair c d = true))) := by
  cases h with
  | identifier h =>
    obtain ⟨c, cs, rfl, hword⟩ := h.1
    have hc := isWordChar_of_isLetter hword.1
    exact ⟨c, cs, rfl, isBlank_eq_false_of_isWordChar hc, .inl hword⟩
  | keyword h =>
    obtain ⟨c, cs, rfl, hword⟩ := isWord_of_mem_keywords h
    have hc := isWordChar_of_isLetter hword.1
    exact ⟨c, cs, rfl, isBlank_eq_false_of_isWordChar hc, .inl hword⟩
  | literal hne h =>
    obtain ⟨c, cs, rfl⟩ := List.exists_cons_of_ne_nil hne
    rw [List.forall_mem_cons] at h
    have hc := isWordChar_of_isAsciiDigit h.1
    exact ⟨c, cs, rfl, isBlank_eq_false_of_isWordChar hc, .inr (.inl h)⟩
  | operator h =>
    obtain ⟨c, cs, rfl, hl, hd, hb, h⟩ := sign_cases (.inl h)
    exact ⟨c, cs, rfl, hb, .inr (.inr ⟨hl, hd, h⟩)⟩
  | separator h =>
    obtain ⟨c, cs, rfl, hl, hd, hb, h⟩ := sign_cases (.inr h)
    exact ⟨c, cs, rfl, hb, .inr (.inr ⟨hl, hd, h⟩)⟩
  | @other c hb hl hd =>
    exact ⟨c, [], rfl, hb, .inr (.inr ⟨hl, hd, .inl rfl⟩)⟩

theorem Admissible.ne_endOfInput {kind : TokenKind} {text : List Char} (h : Admissible kind text) :
    kind ≠ .endOfInput := by
  cases h <;> decide

/-- The kind of an admissible text is a function of the text. -/
private theorem Admissible.kind_eq {kind : TokenKind} {c : Char} {cs : List Char}
    (h : Admissible kind (c :: cs)) :
    kind = if isLetter c then wordKind (c :: cs) else if isAsciiDigit c then .literal
      else if cs = [] then signKind c else .operator := by
  cases h with
  | identifier h =>
    obtain ⟨c', cs', heq, hc, -⟩ := h.1
    obtain ⟨rfl, rfl⟩ := List.cons.inj heq
    rw [if_pos hc, wordKind, if_neg (ne_true_of_eq_false h.2)]
  | keyword h =>
    obtain ⟨c', cs', heq, hc, -⟩ := isWord_of_mem_keywords h
    obtain ⟨rfl, rfl⟩ := List.cons.inj heq
    rw [if_pos hc, wordKind, if_pos (show isKeyword _ = true from decide_eq_true h)]
  | literal hne h =>
    have hc := h c List.mem_cons_self
    rw [if_neg (ne_true_of_eq_false (isLetter_eq_false_of_isAsciiDigit hc)), if_pos hc]
  | operator h =>
    obtain ⟨c', cs', heq, hl, hd, -, -⟩ := sign_cases (.inl h)
    obtain ⟨rfl, rfl⟩ := List.cons.inj heq
    have hsep : ∀ o ∈ operators, o ∉ separators := by decide
    rw [if_neg (ne_true_of_eq_false hl), if_neg (ne_true_of_eq_false hd)]
    split
    · subst cs
      rw [signKind, String.singleton_eq_ofList, if_neg (hsep _ h), if_pos h]
    · rfl
  | separator h =>
    obtain ⟨c', cs', heq, hl, hd, -, -⟩ := sign_cases (.inr h)
    obtain ⟨rfl, rfl⟩ := List.cons.inj heq
    have hlen : ∀ o ∈ separators, o.toList.length = 1 := by decide
    have hcs : cs = [] := by simpa using hlen _ h
    rw [if_neg (ne_true_of_eq_false hl), if_neg (ne_true_of_eq_false hd), if_pos hcs, signKind,
      String.singleton_eq_ofList, if_pos (hcs ▸ h)]
  | other hb hl hd hop hsep =>
    rw [if_neg (ne_true_of_eq_false hl), if_neg (ne_true_of_eq_false hd), if_pos rfl, signKind,
      String.singleton_eq_ofList, if_neg hsep, if_neg hop]

theorem admissible_wordKind {text : List Char} (h : IsWord text) :
    Admissible (wordKind text) text := by
  rw [wordKind]
  split
  · next hk => exact .keyword (of_decide_eq_true hk)
  · next hk => exact .identifier ⟨h, (Bool.not_eq_true _).mp hk⟩

/-- A character that starts neither a gap nor a word nor a literal is admissible as what `signKind`
says. -/
private theorem admissible_signKind {c : Char} (hb : isBlank c = false) (hl : isLetter c = false)
    (hd : isAsciiDigit c = false) : Admissible (signKind c) [c] := by
  rw [signKind, String.singleton_eq_ofList]
  split
  · next h => exact .separator h
  · next hsep =>
    split
    · next h => exact .operator h
    · next hop => exact .other hb hl hd hop hsep

/-! ## The longest match -/

/-- A text in front of the given rest is what a token of the kind is read from: it is admissible,
and nothing longer is at the same place, where two slashes count as the start of a comment. -/
structure IsLongest (kind : TokenKind) (text rest : List Char) : Prop where
  admissible : Admissible kind text
  /-- No admissible text at the same place is longer, whatever its kind. -/
  maximal : ∀ k u, Admissible k u → u <+: text ++ rest → u.length ≤ text.length
  /-- A comment is no token. -/
  not_comment : ¬ ['/', '/'] <+: text ++ rest

theorem IsLongest.unique {k k' : TokenKind} {text text' rest rest' : List Char}
    (h : IsLongest k text rest) (h' : IsLongest k' text' rest')
    (heq : text ++ rest = text' ++ rest') : k = k' ∧ text = text' ∧ rest = rest' := by
  have hlen : text.length = text'.length := by
    apply Nat.le_antisymm
    · exact h'.maximal k text h.admissible ⟨rest, heq⟩
    · exact h.maximal k' text' h'.admissible ⟨rest', heq.symm⟩
  obtain ⟨rfl, rfl⟩ := List.append_inj heq hlen
  obtain ⟨c, cs, rfl, -⟩ := h.admissible.family
  exact ⟨h.admissible.kind_eq.trans h'.admissible.kind_eq.symm, rfl, rfl⟩

/-! ### Seams -/

/-- Whether a character right behind the text `c :: cs` of a token would become part of the token
or make a comment of it. -/
def joins (c : Char) (cs : List Char) (d : Char) : Bool :=
  if isLetter c then isWordChar d
  else if isAsciiDigit c then isAsciiDigit d
  else cs = [] && (isPair c d || c = '/' && d = '/')

/-- A prefix in which a predicate holds throughout does not reach beyond a place where it fails. -/
private theorem length_le_of_prefix_append {p : Char → Bool} {us cs rest : List Char}
    (hpre : us <+: cs ++ rest) (h : ∀ d ∈ us, p d = true) (hrest : ∀ d ∈ rest.head?, p d = false) :
    us.length ≤ cs.length := by
  obtain ⟨ws, heq⟩ := hpre
  rcases List.append_eq_append_iff.mp heq with ⟨vs, rfl, -⟩ | ⟨vs, rfl, rfl⟩
  · simp
  · cases vs with
    | nil => simp
    | cons d vs =>
      have hd := hrest d (by simp)
      rw [h d (by simp)] at hd
      exact absurd hd (by decide)

/-- An admissible text is the longest one where the character behind it does not join. -/
theorem Admissible.isLongest {kind : TokenKind} {c : Char} {cs rest : List Char}
    (h : Admissible kind (c :: cs)) (hrest : ∀ d ∈ rest.head?, joins c cs d = false) :
    IsLongest kind (c :: cs) rest := by
  refine ⟨h, ?_, ?_⟩
  · intro k u hu hpre
    -- Another text at the same place starts with the same character, so it is of the same family.
    obtain ⟨c', v, rfl, -, hfam⟩ := hu.family
    obtain ⟨rfl, hv⟩ := List.cons_prefix_cons.mp hpre
    apply Nat.succ_le_succ
    rcases hfam with ⟨hl, hall⟩ | ⟨hd, hall⟩ | ⟨hl, hd, rfl | ⟨e, rfl, he⟩⟩
    · refine length_le_of_prefix_append hv hall fun d hmem ↦ ?_
      simpa [joins, hl] using hrest d hmem
    · have hl := isLetter_eq_false_of_isAsciiDigit hd
      refine length_le_of_prefix_append hv hall fun d hmem ↦ ?_
      simpa [joins, hl, hd] using hrest d hmem
    · exact Nat.zero_le _
    · cases cs with
      | nil =>
        obtain ⟨ws, rfl⟩ := hv
        have := hrest e (by simp)
        simp [joins, hl, hd, he] at this
      | cons d ds => simp
  · intro hpre
    obtain ⟨rfl, hv⟩ := List.cons_prefix_cons.mp hpre
    have hl : isLetter '/' = false := by decide +kernel
    have hd : isAsciiDigit '/' = false := by decide
    obtain ⟨c', v, heq, -, hfam⟩ := h.family
    obtain ⟨rfl, rfl⟩ := List.cons.inj heq
    rcases hfam with ⟨hl', -⟩ | ⟨hd', -⟩ | ⟨-, -, rfl | ⟨e, rfl, he⟩⟩
    · exact absurd hl' (ne_true_of_eq_false hl)
    · exact absurd hd' (ne_true_of_eq_false hd)
    · obtain ⟨ws, rfl⟩ := hv
      have := hrest '/' (by simp)
      simp [joins, hl, hd] at this
    · obtain ⟨rfl, -⟩ := List.cons_prefix_cons.mp hv
      exact absurd he (by decide)

private theorem head?_dropWhile_eq_false {p : Char → Bool} {cs : List Char} :
    ∀ d ∈ (cs.dropWhile p).head?, p d = false := by
  intro d hd
  have hnot := List.head?_dropWhile_not p cs
  rwa [Option.mem_def.mp hd] at hnot

/-- Where neither a gap nor the end is, `longest` takes the longest text there is. -/
private theorem isLongest_longest {c : Char} {cs : List Char} (hb : isBlank c = false)
    (hc : ¬ (c = '/' ∧ cs.head? = some '/')) :
    IsLongest (longest c cs).1 (longest c cs).2.1 (longest c cs).2.2 := by
  unfold longest
  split
  · next hl =>
    refine (admissible_wordKind ⟨c, _, rfl, hl, fun d ↦ List.mem_takeWhile_imp⟩).isLongest ?_
    intro d hd
    rw [joins, if_pos hl]
    exact head?_dropWhile_eq_false d hd
  · next hl =>
    split
    · next hd =>
      have hdigits : ∀ d ∈ c :: cs.takeWhile isAsciiDigit, isAsciiDigit d = true :=
        List.forall_mem_cons.mpr ⟨hd, fun d ↦ List.mem_takeWhile_imp⟩
      refine (Admissible.literal (List.cons_ne_nil _ _) hdigits).isLongest fun d hd' ↦ ?_
      rw [joins, if_neg hl, if_pos hd]
      exact head?_dropWhile_eq_false d hd'
    · next hd =>
      have hsign : Admissible (signKind c) [c] :=
        admissible_signKind hb ((Bool.not_eq_true _).mp hl) ((Bool.not_eq_true _).mp hd)
      split
      · next d ds =>
        split
        · next hpair =>
          refine (Admissible.operator (of_decide_eq_true hpair)).isLongest fun e _ ↦ ?_
          rw [joins, if_neg hl, if_neg hd]
          rfl
        · next hpair =>
          refine hsign.isLongest fun e he ↦ ?_
          obtain rfl : d = e := Option.some.inj he
          rw [joins, if_neg hl, if_neg hd, (Bool.not_eq_true _).mp hpair]
          simpa using hc
      · exact hsign.isLongest fun d hd' ↦ absurd hd' (by simp)

/-! ## Gaps -/

/-- The stretches that may stand in front of a token: white space and comments. A comment holds no
line feed and ends with one, which itself is white space. -/
inductive Gap : List Char → Prop
  | nil : Gap []
  | blank {c : Char} {gap : List Char} (hc : isBlank c = true) (h : Gap gap) : Gap (c :: gap)
  | comment {body gap : List Char} (hbody : '\n' ∉ body) (h : Gap gap) :
      Gap ('/' :: '/' :: (body ++ '\n' :: gap))

/-- The stretches that may stand behind the last token. There the last comment may end with the
source. -/
inductive FinalGap : List Char → Prop
  | closed {gap : List Char} (h : Gap gap) : FinalGap gap
  | comment {gap body : List Char} (h : Gap gap) (hbody : '\n' ∉ body) :
      FinalGap (gap ++ '/' :: '/' :: body)

theorem FinalGap.blank_cons {c : Char} {gap : List Char} (hc : isBlank c = true)
    (h : FinalGap gap) : FinalGap (c :: gap) := by
  cases h with
  | closed h => exact .closed (.blank hc h)
  | comment h hbody => exact .comment (.blank hc h) hbody

private theorem FinalGap.comment_append {body gap : List Char} (hbody : '\n' ∉ body)
    (h : FinalGap gap) :
    FinalGap ('/' :: '/' :: (body ++ '\n' :: gap)) := by
  cases h with
  | closed h => exact .closed (.comment hbody h)
  | @comment gap body' h hbody' =>
    rw [show '/' :: '/' :: (body ++ '\n' :: (gap ++ '/' :: '/' :: body'))
      = ('/' :: '/' :: (body ++ '\n' :: gap)) ++ '/' :: '/' :: body' from by simp]
    exact .comment (.comment hbody h) hbody'

/-! ### The gap that the scanner skips -/

private theorem isBlank_slash : isBlank '/' = false := by decide

private theorem splitGap_blank {c : Char} (hc : isBlank c = true) (cs : List Char) :
    splitGap false (c :: cs) = (splitGap false cs).map (c :: ·) id := by
  rw [splitGap, if_pos hc]

private theorem splitGap_of_not_gap {c : Char} {cs : List Char} (hb : isBlank c = false)
    (hc : ¬ (c = '/' ∧ cs.head? = some '/')) : splitGap false (c :: cs) = ([], c :: cs) := by
  rw [splitGap, if_neg (ne_true_of_eq_false hb), if_neg hc]

private theorem splitGap_inComment {body : List Char} (hbody : '\n' ∉ body) (cs : List Char) :
    splitGap true (body ++ '\n' :: cs)
      = (splitGap false cs).map (body ++ '\n' :: ·) id := by
  induction body with
  | nil =>
    rw [List.nil_append, splitGap]
    rfl
  | cons c body ih =>
    rw [List.mem_cons, not_or] at hbody
    rw [List.cons_append, splitGap, decide_eq_true (Ne.symm hbody.1), ih hbody.2]
    rfl

private theorem splitGap_openComment {body : List Char} (hbody : '\n' ∉ body) :
    splitGap true body = (body, []) := by
  induction body with
  | nil => rw [splitGap]
  | cons c body ih =>
    rw [List.mem_cons, not_or] at hbody
    rw [splitGap, decide_eq_true (Ne.symm hbody.1), ih hbody.2]
    rfl

private theorem splitGap_slashes (cs : List Char) :
    splitGap false ('/' :: '/' :: cs) = (splitGap true cs).map ('/' :: '/' :: ·) id := by
  rw [splitGap, if_neg (ne_true_of_eq_false isBlank_slash), if_pos ⟨rfl, rfl⟩, splitGap]
  rfl

theorem splitGap_append_of_gap {gap : List Char} (h : Gap gap) (cs : List Char) :
    splitGap false (gap ++ cs) = (splitGap false cs).map (gap ++ ·) id := by
  induction h with
  | nil => rfl
  | blank hc _ ih =>
    rw [List.cons_append, splitGap_blank hc, ih]
    rfl
  | @comment body gap hbody _ ih =>
    rw [List.cons_append, List.cons_append, List.append_assoc, List.cons_append, splitGap_slashes,
      splitGap_inComment hbody, ih]
    simp [Prod.map]

/-- A comment is closed by a line feed or runs to the end. -/
theorem exists_comment_body (cs : List Char) :
    '\n' ∉ cs ∨ ∃ body rest, '\n' ∉ body ∧ cs = body ++ '\n' :: rest := by
  by_cases h : '\n' ∈ cs
  · obtain ⟨body, rest, rfl, hbody⟩ := List.eq_append_cons_of_mem h
    exact .inr ⟨body, rest, hbody, rfl⟩
  · exact .inl h

/-- Every text is a final gap, or a gap with something behind it that belongs to no gap. -/
private theorem gap_cases (cs : List Char) :
    FinalGap cs ∨ ∃ gap c rest, cs = gap ++ c :: rest ∧ Gap gap ∧ isBlank c = false ∧
      ¬ (c = '/' ∧ rest.head? = some '/') := by
  match cs with
  | [] => exact .inl (.closed .nil)
  | c :: cs =>
    by_cases hb : isBlank c = true
    · rcases gap_cases cs with h | ⟨gap, d, rest, rfl, hgap, hd⟩
      · exact .inl (h.blank_cons hb)
      · exact .inr ⟨c :: gap, d, rest, rfl, .blank hb hgap, hd⟩
    · rw [Bool.not_eq_true] at hb
      by_cases hc : c = '/' ∧ cs.head? = some '/'
      · obtain ⟨rfl, hhead⟩ := hc
        obtain ⟨ds, rfl⟩ := List.head?_eq_some_iff.mp hhead
        rcases exists_comment_body ds with hds | ⟨body, es, hbody, rfl⟩
        · exact .inl (.comment .nil hds)
        · -- The comment is closed, so what follows its line feed decides.
          rcases gap_cases es with h | ⟨gap, d, rest, rfl, hgap, hd⟩
          · exact .inl (h.comment_append hbody)
          · exact .inr ⟨'/' :: '/' :: (body ++ '\n' :: gap), d, rest, by simp,
              .comment hbody hgap, hd⟩
      · exact .inr ⟨[], c, cs, rfl, .nil, hb, hc⟩
termination_by cs.length
decreasing_by all_goals simp_all <;> omega

/-! ## One step of the scanner -/

namespace Lexeme

theorem first?_of_gap {gap : List Char} (hgap : Gap gap) {c : Char} {cs : List Char}
    (hb : isBlank c = false) (hc : ¬ (c = '/' ∧ cs.head? = some '/')) :
    first? (gap ++ c :: cs)
      = some (⟨gap, (longest c cs).1, (longest c cs).2.1⟩, (longest c cs).2.2) := by
  rw [first?, splitGap_append_of_gap hgap, splitGap_of_not_gap hb hc]
  simp [Prod.map]

theorem first?_of_finalGap {cs : List Char} (h : FinalGap cs) : first? cs = none := by
  have hsplit : splitGap false cs = (cs, []) := by
    cases h with
    | closed h =>
      have := splitGap_append_of_gap h []
      rw [List.append_nil] at this
      rw [this, splitGap]
      simp [Prod.map]
    | comment h hbody =>
      rw [splitGap_append_of_gap h, splitGap_slashes, splitGap_openComment hbody]
      rfl
  rw [first?, hsplit]

/-- The scanner finds no token exactly where nothing but a final gap is left. -/
theorem first?_eq_none_iff {cs : List Char} : first? cs = none ↔ FinalGap cs := by
  refine ⟨fun h ↦ ?_, first?_of_finalGap⟩
  rcases gap_cases cs with hfinal | ⟨gap, c, rest, rfl, hgap, hb, hc⟩
  · exact hfinal
  · rw [first?_of_gap hgap hb hc] at h
    exact absurd h (by simp)

/-- **One step.** What the scanner takes is a gap and the longest token behind it, and there is
no other way to cut such a pair from the front of a text. -/
theorem first?_eq_some_iff {cs rest : List Char} {l : Lexeme} :
    first? cs = some (l, rest) ↔
      cs = l.gap ++ (l.text ++ rest) ∧ Gap l.gap ∧ IsLongest l.kind l.text rest := by
  constructor
  · intro h
    rcases gap_cases cs with hfinal | ⟨gap, c, cs, rfl, hgap, hb, hc⟩
    · rw [first?_of_finalGap hfinal] at h
      exact absurd h (by simp)
    · rw [first?_of_gap hgap hb hc, Option.some.injEq, Prod.mk.injEq] at h
      obtain ⟨rfl, rfl⟩ := h
      exact ⟨by rw [longest_append], hgap, isLongest_longest hb hc⟩
  · rintro ⟨rfl, hgap, h⟩
    obtain ⟨gap, kind, text⟩ := l
    dsimp only at hgap h ⊢
    obtain ⟨c, cs, rfl, hb, -⟩ := h.admissible.family
    have hc : ¬ (c = '/' ∧ (cs ++ rest).head? = some '/') := by
      rintro ⟨rfl, hhead⟩
      obtain ⟨ds, hds⟩ := List.head?_eq_some_iff.mp hhead
      exact h.not_comment ⟨ds, by simp [hds]⟩
    -- Both the given text and what the scanner takes are the longest one here.
    obtain ⟨hkind, htext, hrest⟩ :=
      (isLongest_longest hb hc).unique h (longest_append c (cs ++ rest))
    rw [List.cons_append, first?_of_gap hgap hb hc, hkind, htext, hrest]

end Lexeme

/-- Nowhere in a text is there a character at which the scanner could find nothing to read. -/
theorem exists_admissible_of_not_blank {c : Char} (hb : isBlank c = false) (cs : List Char) :
    ∃ k u, Admissible k u ∧ u <+: c :: cs := by
  by_cases hl : isLetter c = true
  · exact ⟨_, [c], admissible_wordKind ⟨c, [], rfl, hl, by simp⟩, ⟨cs, rfl⟩⟩
  · rw [Bool.not_eq_true] at hl
    by_cases hd : isAsciiDigit c = true
    · exact ⟨.literal, [c], .literal (by simp) (by simpa using hd), ⟨cs, rfl⟩⟩
    · rw [Bool.not_eq_true] at hd
      exact ⟨_, [c], admissible_signKind hb hl hd, ⟨cs, rfl⟩⟩

end Kay
