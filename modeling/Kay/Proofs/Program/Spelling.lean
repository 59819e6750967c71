import Kay.Proofs.Grammar.Derivation
import Kay.Proofs.Program.Normal

/-!
# The terminals of a canonical text

What the text of a tree is cut into. `Spells follow text ts` says that `text` in front of any other
text adds the terminals `ts` to those of the other, as long as the other one does not start with a
character that would join. Three sets of followers are enough. Signs and blanks that end a text
leave nothing to join (`anything`), a word or a numeral must not go on (`endsWord`), and an operator
must not grow by a second character or into a comment (`endsSign`).

The terminals of a tree are given for normal programs, whose braces are all in the tree.
-/

namespace Kay

open Text Lexeme Terminal

/-! ## Seams of operators -/

/-- The characters of an operator that has two. -/
private theorem isPair_imp {c d : Char} (h : isPair c d = true) :
    c ∈ [':', '<', '>', '=', '!', '&', '|'] ∧ d ∈ ['=', '&', '|'] := by
  have hhead : ∀ o ∈ operators, o.toList.length = 2 →
      o.toList.head?.all (· ∈ [':', '<', '>', '=', '!', '&', '|']) = true := by decide
  have hlast : ∀ o ∈ operators, o.toList.length = 2 →
      o.toList.getLast?.all (· ∈ ['=', '&', '|']) = true := by decide
  have hmem : String.ofList [c, d] ∈ operators := of_decide_eq_true h
  have hc := hhead _ hmem (by rw [String.toList_ofList]; rfl)
  have hd := hlast _ hmem (by rw [String.toList_ofList]; rfl)
  rw [String.toList_ofList] at hc hd
  exact ⟨of_decide_eq_true hc, of_decide_eq_true hd⟩

/-! ## Spelling -/

/-- Whether a text in front of any other one that starts with one of the followers adds the given
terminals to those of the other. -/
structure Spells (follow : Char → Bool) (text : String) (ts : List Terminal) : Prop where
  terminals_append : ∀ rest : List Char, (∀ d ∈ rest.head?, follow d = true) →
    terminals (text.toList ++ rest) = ts ++ terminals rest

/-- Every character. -/
def anything (_ : Char) : Bool := true

/-- The characters with which a word does not go on. -/
def endsWord (d : Char) : Bool := !isWordChar d

/-- The characters that do not join an operator in front of them. -/
def endsSign (d : Char) : Bool := d ∉ ['=', '&', '|', '/']

private theorem endsSign_of_isWordChar {d : Char} (h : isWordChar d = true) :
    endsSign d = true := by
  have hall : ['=', '&', '|', '/'].all (!isWordChar ·) = true := by decide +kernel
  rw [endsSign, decide_eq_true_eq]
  intro hmem
  have hd := List.all_eq_true.mp hall d hmem
  rw [h] at hd
  exact absurd hd (by decide)

theorem endsWord_of_isBlank {d : Char} (h : isBlank d = true) : endsWord d = true := by
  rw [endsWord, isWordChar_eq_false_of_isBlank h, Bool.not_false]

theorem endsWord_of_mem {d : Char} (h : d ∈ ['(', ')', ';', '+']) : endsWord d = true := by
  have hall : ['(', ')', ';', '+'].all endsWord = true := by decide +kernel
  exact List.all_eq_true.mp hall d h

namespace Spells

variable {follow follow' : Char → Bool} {a b : String} {ts us : List Terminal}

private theorem of_anything (h : Spells anything a ts) : Spells follow a ts :=
  ⟨fun rest _ ↦ h.terminals_append rest fun _ _ ↦ rfl⟩

theorem append (ha : Spells anything a ts) (hb : Spells follow b us) :
    Spells follow (a ++ b) (ts ++ us) := by
  refine ⟨fun rest hrest ↦ ?_⟩
  rw [String.toList_append, List.append_assoc, ha.terminals_append _ fun _ _ ↦ rfl,
    hb.terminals_append rest hrest, List.append_assoc]

/-- The text behind says how it starts, so that the seam can be judged. -/
theorem append_of_head (ha : Spells follow a ts) (hb : Spells follow' b us)
    (hseam : ∃ d, b.toList.head? = some d ∧ follow d = true) :
    Spells follow' (a ++ b) (ts ++ us) := by
  obtain ⟨d, hd, hfollow⟩ := hseam
  refine ⟨fun rest hrest ↦ ?_⟩
  have hhead : (b.toList ++ rest).head? = some d := by rw [List.head?_append, hd, Option.some_or]
  rw [String.toList_append, List.append_assoc, ha.terminals_append _ ?_,
    hb.terminals_append rest hrest, List.append_assoc]
  intro e he
  rw [hhead, Option.mem_some_iff] at he
  rwa [← he]

/-- A text that is one token spells it, where the followers do not join. -/
private theorem of_admissible {kind : TokenKind} {c : Char} {cs : List Char}
    (h : Admissible kind (c :: cs)) (hfollow : ∀ d, follow d = true → joins c cs d = false) :
    Spells follow (String.ofList (c :: cs)) [⟨kind, String.ofList (c :: cs)⟩] := by
  refine ⟨fun rest hrest ↦ ?_⟩
  rw [String.toList_ofList, h.terminals_append fun d hd ↦ hfollow d (hrest d hd),
    List.singleton_append]

end Spells

/-! ## Single tokens -/

theorem spells_blank {text : String} (h : text.toList.all isBlank = true) :
    Spells anything text [] := by
  refine ⟨fun rest _ ↦ ?_⟩
  rw [List.nil_append]
  rw [List.all_eq_true] at h
  generalize text.toList = cs at h
  induction cs with
  | nil => rfl
  | cons c cs ih =>
    rw [List.forall_mem_cons] at h
    rw [List.cons_append, terminals_blank h.1, ih h.2]

private theorem spells_word {kind : TokenKind} {word : String} (hword : IsWord word.toList)
    (h : Admissible kind word.toList) : Spells endsWord word [⟨kind, word⟩] := by
  obtain ⟨c, cs, heq, hc, -⟩ := hword
  rw [heq] at h
  rw [← String.ofList_toList (s := word), heq]
  refine .of_admissible h fun d hd ↦ ?_
  rw [joins, if_pos hc]
  simpa [endsWord] using hd

theorem spells_identifier {name : String} (h : IsIdentifier name.toList) :
    Spells endsWord name [.identifier name] :=
  spells_word h.1 (.identifier h)

theorem spells_keyword {word : String} (h : word ∈ keywords) :
    Spells endsWord word [.keyword word] := by
  have hmem : String.ofList word.toList ∈ keywords := by rwa [String.ofList_toList]
  exact spells_word (isWord_of_mem_keywords hmem) (.keyword hmem)

theorem spells_literal {text : String} (hne : text.toList ≠ [])
    (h : text.toList.all isAsciiDigit = true) : Spells endsWord text [.literal text] := by
  rw [List.all_eq_true] at h
  have hadm : Admissible .literal text.toList := .literal hne h
  obtain ⟨c, cs, heq⟩ := List.exists_cons_of_ne_nil hne
  have hc : isAsciiDigit c = true := h c (by rw [heq]; exact List.mem_cons_self)
  rw [heq] at hadm
  rw [← String.ofList_toList (s := text), heq]
  refine .of_admissible hadm fun d hd ↦ ?_
  rw [joins, isLetter_eq_false_of_isAsciiDigit hc, if_neg (by decide), if_pos hc,
    ← Bool.not_eq_true]
  intro hdigit
  rw [endsWord, isWordChar_of_isAsciiDigit hdigit] at hd
  exact absurd hd (by decide)

theorem exists_cons_digits (n : Nat) :
    ∃ c cs, Decimal.digits n = c :: cs ∧ isAsciiDigit c = true := by
  have hne : Decimal.digits n ≠ [] := by
    rw [Decimal.digits]
    split <;> simp
  obtain ⟨c, cs, heq⟩ := List.exists_cons_of_ne_nil hne
  exact ⟨c, cs, heq, Decimal.isAsciiDigit_of_mem_digits n c (by rw [heq]; exact List.mem_cons_self)⟩

private theorem spells_digits (n : Nat) : Spells endsWord (String.ofList (Decimal.digits n))
    [.literal (String.ofList (Decimal.digits n))] := by
  obtain ⟨c, cs, heq, -⟩ := exists_cons_digits n
  apply spells_literal
  · rw [String.toList_ofList, heq]
    exact List.cons_ne_nil c cs
  · rw [String.toList_ofList, List.all_eq_true]
    exact Decimal.isAsciiDigit_of_mem_digits n

theorem spells_separator {text : String} (h : text ∈ separators) :
    Spells anything text [.separator text] := by
  have hmem : String.ofList text.toList ∈ separators := by rwa [String.ofList_toList]
  have hall : ∀ s ∈ separators,
      s.toList.head?.all (· ∉ '/' :: [':', '<', '>', '=', '!', '&', '|']) = true := by decide
  obtain ⟨c, cs, heq, hl, hd, -, -⟩ := sign_cases (.inr hmem)
  have hc := hall _ h
  rw [heq] at hc
  have hnot := of_decide_eq_true hc
  have hslash : c ≠ '/' := List.ne_of_not_mem_cons hnot
  have hpair := List.not_mem_of_not_mem_cons hnot
  rw [← String.ofList_toList (s := text), heq]
  refine .of_admissible (.separator (by rwa [← heq])) fun d _ ↦ ?_
  have hno : isPair c d = false := by
    rw [← Bool.not_eq_true]
    exact fun h ↦ hpair (isPair_imp h).1
  rw [joins, hl, hd, hno, decide_eq_false hslash]
  simp

theorem spells_operator {op : String} (h : op ∈ operators) :
    Spells endsSign op [.operator op] := by
  have hmem : String.ofList op.toList ∈ operators := by rwa [String.ofList_toList]
  obtain ⟨c, cs, heq, hl, hd, -, -⟩ := sign_cases (.inl hmem)
  rw [← String.ofList_toList (s := op), heq]
  refine .of_admissible (.operator (by rwa [← heq])) fun d hfollow ↦ ?_
  have hsign : d ∉ ['=', '&', '|', '/'] := of_decide_eq_true hfollow
  have hno : isPair c d = false := by
    rw [← Bool.not_eq_true]
    intro h
    have hsubset : ['=', '&', '|'] ⊆ ['=', '&', '|', '/'] := by decide
    exact hsign (hsubset (isPair_imp h).2)
  have hslash : d ≠ '/' := by
    rintro rfl
    exact hsign (by decide)
  rw [joins, hl, hd, hno, decide_eq_false hslash]
  simp

/-! ## Expressions -/

/-- What a tree may hold so that its text is cut into tokens as intended: names that are identifiers
and operators that are written with the signs of the table. -/
def Vocabulary.writable : Vocabulary where
  name name := IsIdentifier name.toList
  unary op := op ∈ operators ∨ op = "<>"
  binary op := op ∈ operators ∨ op = "<>"
  integer _ := True

/-- The terminals of an operator. There is no token `<>`. -/
def Operator.terminals (op : Operator) : List Terminal :=
  if op.lexeme = "<>" then [.operator "<", .operator ">"] else [.operator op.lexeme]

/-- The terminals of a literal value. -/
def Value.terminals : Value → List Terminal
  | integer n =>
    match n.toInt with
    | .ofNat k => [.literal (String.ofList (Decimal.digits k))]
    | .negSucc k => [.operator "-", .literal (String.ofList (Decimal.digits (k + 1)))]
  | boolean b => [.keyword (boolText b)]

/-- The terminals of an operand, in parentheses where these are called for. -/
def Expression.groupedTerminals (parentheses : Bool) (ts : List Terminal) : List Terminal :=
  if parentheses then .separator "(" :: (ts ++ [.separator ")"]) else ts

/-- The terminals of an expression. -/
def Expression.terminals : Expression → List Terminal
  | .variable v => [.identifier v.name]
  | .value v => v.terminals
  | .unary op operand =>
    op.terminals ++ groupedTerminals (operand.isUnary || operand.isBinary) operand.terminals
  | .binary op left right =>
    groupedTerminals left.isBinary left.terminals ++ (op.terminals ++
      groupedTerminals right.isBinary right.terminals)

private theorem Operator.spells_lexeme {op : Operator}
    (h : op.lexeme ∈ operators ∨ op.lexeme = "<>") :
    Spells endsSign op.lexeme op.terminals := by
  rw [Operator.terminals]
  split
  · next heq =>
    have hsplit : op.lexeme = "<" ++ ">" := heq
    rw [hsplit]
    exact (spells_operator (by decide)).append_of_head (spells_operator (by decide))
      ⟨'>', rfl, rfl⟩
  · next hne => exact spells_operator (h.resolve_right hne)

/-- A numeral starts with a digit or a minus sign, neither of which joins an operator. -/
private theorem Value.exists_head (v : Value) :
    ∃ d, v.text.toList.head? = some d ∧ endsSign d = true := by
  rcases v with n | b
  · rw [Value.text, Decimal.text, String.toList_ofList]
    rcases n.toInt with k | k
    · obtain ⟨c, cs, heq, hc⟩ := exists_cons_digits k
      exact ⟨c, by rw [Decimal.ofInt, heq, List.head?_cons],
        endsSign_of_isWordChar (isWordChar_of_isAsciiDigit hc)⟩
    · exact ⟨'-', rfl, rfl⟩
  · cases b with
    | true => exact ⟨'T', rfl, rfl⟩
    | false => exact ⟨'F', rfl, rfl⟩

private theorem Value.spells_text (v : Value) : Spells endsWord v.text v.terminals := by
  rcases v with n | b
  · rw [Value.text, Value.terminals, Decimal.text]
    rcases n.toInt with k | k
    · exact spells_digits k
    · obtain ⟨c, cs, heq, hc⟩ := exists_cons_digits (k + 1)
      have hsplit : String.ofList (Decimal.ofInt (.negSucc k)) =
          "-" ++ String.ofList (Decimal.digits (k + 1)) := by
        rw [Decimal.ofInt, ← List.singleton_append, String.ofList_append]
      have hhead : (String.ofList (Decimal.digits (k + 1))).toList.head? = some c := by
        rw [String.toList_ofList, heq, List.head?_cons]
      rw [hsplit]
      exact (spells_operator (by decide)).append_of_head (spells_digits (k + 1))
        ⟨c, hhead, endsSign_of_isWordChar (isWordChar_of_isAsciiDigit hc)⟩
  · cases b with
    | true => exact spells_keyword (by decide)
    | false => exact spells_keyword (by decide)

private theorem Expression.spells_grouped {text : String} {ts : List Terminal}
    (h : Spells endsWord text ts) (parentheses : Bool) :
    Spells endsWord (grouped parentheses text) (groupedTerminals parentheses ts) := by
  rw [grouped, groupedTerminals]
  split
  · have hopen : Spells anything "(" [.separator "("] := spells_separator (by decide)
    have hclose : Spells anything ")" [.separator ")"] := spells_separator (by decide)
    have hinner := (hopen.append h).append_of_head hclose ⟨')', rfl, endsWord_of_mem (by decide)⟩
    exact hinner.of_anything
  · exact h

/-- What stands behind a sign in front of it does not join the sign. -/
private theorem Expression.exists_head_grouped {x : Expression} (h : x.Over .writable) :
    ∃ d, (grouped (x.isUnary || x.isBinary) x.text).toList.head? = some d ∧
      endsSign d = true := by
  cases x with
  | «variable» v =>
    have hname : IsIdentifier v.name.toList := h
    obtain ⟨c, cs, heq, hc, -⟩ := hname.1
    refine ⟨c, congrArg List.head? heq, endsSign_of_isWordChar ?_⟩
    rw [isWordChar, hc, Bool.true_or]
  | value v => exact v.exists_head
  | unary | binary => exact ⟨'(', by rw [grouped]; simp [isUnary, isBinary], rfl⟩

/-- The text of an expression is cut into its terminals. -/
private theorem Expression.spells_text {x : Expression} (h : x.Over .writable) :
    Spells endsWord x.text x.terminals := by
  have hblank : Spells anything " " [] := spells_blank (by decide)
  induction x with
  | «variable» v => exact spells_identifier h
  | value v => exact v.spells_text
  | unary op operand ih =>
    have hop := Operator.spells_lexeme h.1
    exact hop.append_of_head (spells_grouped (ih h.2) _) (exists_head_grouped h.2)
  | binary op left right ihl ihr =>
    have hleft := spells_grouped (ihl h.2.1) left.isBinary
    have hright := spells_grouped (ihr h.2.2) right.isBinary
    have hop := Operator.spells_lexeme h.1
    have hfront := hleft.append_of_head hblank ⟨' ', rfl, endsWord_of_isBlank rfl⟩
    have hmiddle := (hfront.append hop).append_of_head hblank ⟨' ', rfl, rfl⟩
    rw [text, terminals]
    simpa using hmiddle.append hright

/-! ## Statements -/

namespace Statement

mutual

/-- The terminals of a statement, with the braces of its tree and no others. -/
def terminals : Statement → List Terminal
  | skip => [.separator ";"]
  | assignment target source =>
    .identifier target.name :: .operator ":=" :: (source.terminals ++ [.separator ";"])
  | conditional test thenBranch none =>
    .keyword "if" :: .separator "(" :: (test.terminals ++ .separator ")" :: thenBranch.terminals)
  | conditional test thenBranch (some elseBranch) =>
    .keyword "if" :: .separator "(" :: (test.terminals ++ .separator ")" ::
      (thenBranch.terminals ++ .keyword "else" :: elseBranch.terminals))
  | loop test body =>
    .keyword "while" :: .separator "(" :: (test.terminals ++ .separator ")" :: body.terminals)
  | block members => .separator "\x7b" :: (terminalsOf members ++ [.separator "\x7d"])

/-- The terminals of statements in sequence. -/
def terminalsOf : List Statement → List Terminal
  | [] => []
  | m :: ms => m.terminals ++ terminalsOf ms

end

variable {level : Nat} {s : Statement} {written : Nat → String} {ts : List Terminal}

private theorem spells_indentation (level : Nat) : Spells anything (indentation level) [] := by
  refine spells_blank ?_
  rw [indentation, String.toList_ofList, List.all_replicate]
  split
  · rfl
  · decide

/-- The test of a composite statement, with its keyword and its parentheses. -/
private theorem spells_guard (word : String) (hword : word ∈ keywords) {b : Expression}
    (hb : b.Over .writable) : Spells anything (word ++ " (" ++ b.text ++ ")")
      (.keyword word :: .separator "(" :: (b.terminals ++ [.separator ")"])) := by
  have hopen : Spells anything " (" [.separator "("] := by
    have hblank : Spells anything " " [] := spells_blank (by decide)
    have hsign : Spells anything "(" [.separator "("] := spells_separator (by decide)
    exact hblank.append hsign
  have hclose : Spells anything ")" [.separator ")"] := spells_separator (by decide)
  have hfront := (spells_keyword hword).append_of_head hopen ⟨' ', rfl, endsWord_of_isBlank rfl⟩
  exact (hfront.append (Expression.spells_text hb)).append_of_head hclose
    ⟨')', rfl, endsWord_of_mem (by decide)⟩

private theorem spells_asBranch (h : ∀ k, Spells anything (written k) ts) :
    Spells anything (asBranch level s written) ts := by
  rw [asBranch]
  split
  · have hblank : Spells anything " " [] := spells_blank (by decide)
    exact hblank.append (h level)
  · have hline : Spells anything "\n" [] := spells_blank (by decide)
    exact (hline.append (spells_indentation (level + 1))).append (h (level + 1))

/-- A branch is set off from what stands in front of it. -/
private theorem exists_head_asBranch :
    ∃ d, (asBranch level s written).toList.head? = some d ∧ endsWord d = true := by
  rw [asBranch]
  split
  · exact ⟨' ', by simp, endsWord_of_isBlank rfl⟩
  · exact ⟨'\n', by simp, endsWord_of_isBlank rfl⟩

private theorem spells_beforeElse (hopen : s.endsWithOpenIf = false)
    (h : ∀ k, Spells anything (written k) ts) :
    Spells endsWord (beforeElse level s written) (ts ++ [.keyword "else"]) := by
  have helse : Spells endsWord "else" [.keyword "else"] := spells_keyword (by decide)
  rw [beforeElse, if_neg (ne_true_of_eq_false hopen)]
  split
  · have hblank : Spells anything " " [] := spells_blank (by decide)
    exact (spells_asBranch h).append (hblank.append helse)
  · have hline : Spells anything "\n" [] := spells_blank (by decide)
    have hbranch : Spells anything (asBranch level s written) ts := spells_asBranch h
    have hfront := (hbranch.append hline).append (spells_indentation level)
    simpa using hfront.append helse

mutual

/-- The text of a normal statement is cut into its terminals. -/
private theorem spells_unindented : ∀ {s : Statement}, s.Over .writable → s.Normal →
    ∀ level, Spells anything (s.unindented level) s.terminals
  | skip, _, _, _ => by
    rw [unindented, terminals]
    exact spells_separator (by decide)
  | assignment x e, h, _, _ => by
    have hassign : Spells endsSign ":=" [.operator ":="] := spells_operator (by decide)
    have hblank : Spells anything " " [] := spells_blank (by decide)
    have hend : Spells anything ";" [.separator ";"] := spells_separator (by decide)
    have hmiddle := (hblank.append hassign).append_of_head hblank ⟨' ', rfl, rfl⟩
    have hfront := (spells_identifier h.1).append_of_head hmiddle
      ⟨' ', rfl, endsWord_of_isBlank rfl⟩
    exact (hfront.append (Expression.spells_text h.2)).append_of_head hend
      ⟨';', rfl, endsWord_of_mem (by decide)⟩
  | conditional b t none, h, hn, level => by
    have hguard : Spells anything ("if (" ++ b.text ++ ")") _ := spells_guard "if" (by decide) h.1
    have ht := spells_unindented (s := t) h.2 hn
    rw [unindented, terminals]
    simpa using hguard.append (spells_asBranch ht)
  | conditional b t (some e), h, hn, level => by
    have hguard : Spells anything ("if (" ++ b.text ++ ")") _ := spells_guard "if" (by decide) h.1
    have ht := spells_unindented h.2.1 hn.1
    have he := spells_unindented h.2.2 hn.2.2
    have hthen : Spells endsWord (beforeElse level t t.unindented) _ :=
      spells_beforeElse hn.2.1 ht
    have helse : Spells anything (asBranch level e e.unindented) _ := spells_asBranch he
    rw [unindented, terminals]
    simpa using (hguard.append hthen).append_of_head helse exists_head_asBranch
  | loop b s, h, hn, level => by
    have hguard : Spells anything ("while (" ++ b.text ++ ")") _ :=
      spells_guard "while" (by decide) h.1
    have hs := spells_unindented (s := s) h.2 hn
    rw [unindented, terminals]
    simpa using hguard.append (spells_asBranch hs)
  | block [], _, _, _ => by
    have hopen : Spells anything "\x7b" [.separator "\x7b"] := spells_separator (by decide)
    have hblank : Spells anything " " [] := spells_blank (by decide)
    have hclose : Spells anything "\x7d" [.separator "\x7d"] := spells_separator (by decide)
    exact (hopen.append hblank).append hclose
  | block (m :: ms), h, hn, level => by
    have hsign : Spells anything "\x7b" [.separator "\x7b"] := spells_separator (by decide)
    have hline : Spells anything "\n" [] := spells_blank (by decide)
    have hopen : Spells anything "\x7b\n" [.separator "\x7b"] := hsign.append hline
    have hclose : Spells anything "\x7d" [.separator "\x7d"] := spells_separator (by decide)
    have hm := spells_unindented h.1 hn.1 (level + 1)
    have hms := spells_linesOf h.2 hn.2 (level + 1)
    have hfront := ((hopen.append (spells_indentation (level + 1))).append hm).append hline
    rw [unindented, terminals, terminalsOf]
    simpa using ((hfront.append hms).append (spells_indentation level)).append hclose

/-- The lines of normal statements are cut into their terminals. -/
private theorem spells_linesOf :
    ∀ {ms : List Statement}, MembersOver .writable ms → MembersNormal ms →
    ∀ level, Spells anything (linesOf ms level) (terminalsOf ms)
  | [], _, _, _ => spells_blank rfl
  | m :: ms, h, hn, level => by
    have hline : Spells anything "\n" [] := spells_blank (by decide)
    have hm := (spells_indentation level).append (spells_unindented h.1 hn.1 level)
    rw [linesOf, terminalsOf]
    simpa using (hm.append hline).append (spells_linesOf h.2 hn.2 level)

end

end Statement

/-! ## Programs -/

/-- The terminals of a declaration. -/
def Declaration.terminals (d : Declaration) : List Terminal :=
  [.keyword d.ty.keyword, .identifier d.declared.name, .separator ";"]

/-- The terminals of a program, the end of input left out. -/
def Program.terminals (p : Program) : List Terminal :=
  .keyword "main" :: .separator "\x7b" :: (p.declarations.flatMap Declaration.terminals ++
    (Statement.terminalsOf p.body.members ++ [.separator "\x7d"]))

private theorem Declaration.spells_text {d : Declaration} (h : IsIdentifier d.declared.name.toList)
    (level : Nat) : Spells anything (d.text level) d.terminals := by
  have hblank : Spells anything " " [] := spells_blank (by decide)
  have hend : Spells anything ";" [.separator ";"] := spells_separator (by decide)
  have hword : Spells endsWord d.ty.keyword [.keyword d.ty.keyword] :=
    spells_keyword (by cases d.ty <;> decide)
  have hty := (Statement.spells_indentation level).append hword
  have hfront := hty.append_of_head hblank ⟨' ', rfl, endsWord_of_isBlank rfl⟩
  exact (hfront.append (spells_identifier h)).append_of_head hend
    ⟨';', rfl, endsWord_of_mem (by decide)⟩

private theorem spells_declarations {ds : List Declaration}
    (h : ∀ d ∈ ds, IsIdentifier d.declared.name.toList) (level : Nat) :
    Spells anything (String.join (ds.map fun d ↦ d.text level ++ "\n"))
      (ds.flatMap Declaration.terminals) := by
  have hline : Spells anything "\n" [] := spells_blank (by decide)
  induction ds with
  | nil => exact spells_blank rfl
  | cons d ds ih =>
    rw [List.forall_mem_cons] at h
    rw [List.map_cons, String.join_cons, List.flatMap_cons]
    simpa using ((Declaration.spells_text h.1 level).append hline).append (ih h.2)

/-- The text of a normal program is cut into its terminals. -/
theorem Program.terminals_text {p : Program} (h : p.Over .writable) (hn : p.Normal)
    (level : Nat) : Kay.terminals (p.text level).toList = p.terminals := by
  have hline : Spells anything "\n" [] := spells_blank (by decide)
  have hblank : Spells anything " " [] := spells_blank (by decide)
  have hmain : Spells endsWord "main" [.keyword "main"] := spells_keyword (by decide)
  have hbrace : Spells anything "\x7b" [.separator "\x7b"] := spells_separator (by decide)
  have hclose : Spells anything "\x7d" [.separator "\x7d"] := spells_separator (by decide)
  have hopen : Spells anything "main \x7b\n" [.keyword "main", .separator "\x7b"] :=
    ((hmain.append_of_head hblank ⟨' ', rfl, endsWord_of_isBlank rfl⟩).append hbrace).append hline
  have hend : Spells anything "\x7d\n" [.separator "\x7d"] := hclose.append hline
  have hfront := (Statement.spells_indentation level).append hopen
  have hbody := (hfront.append (spells_declarations h.1 (level + 1))).append
    (Statement.spells_linesOf h.2 hn (level + 1))
  have hspells := (hbody.append (Statement.spells_indentation level)).append hend
  have hall := hspells.terminals_append [] (by simp)
  rw [List.append_nil, terminals_nil, List.append_nil] at hall
  rw [text, hall, terminals]
  simp

end Kay
