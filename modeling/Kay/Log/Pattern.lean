import Kay.Text.Alphanumeric
import Kay.Text.Digit

/-!
# Patterns

The values that a directive may ask for in a field: numbers, and regular expressions. Nothing is
ever matched here, but a filter is refused for a value that is neither, so it has to be known which
texts are regular expressions.

A regular expression consists of alternatives between bars, each of them a sequence of items:
characters, a dot, anchors, escapes, classes in square brackets and groups in parentheses. An item
may be repeated by `*`, `+` or `?`. Counted repetition is left out, since a value holds no closing
brace, and so is all that hangs on tables of characters: named classes, the boundaries of words, and
matching without regard to case.
-/

namespace Kay.Log.Pattern

open Text

/-! ## Numbers -/

/-- A text without the sign in front. -/
def withoutSign : List Char → List Char
  | '+' :: cs | '-' :: cs => cs
  | cs => cs

/-- Whether a text is a nonempty string of digits. -/
def areDigits (cs : List Char) : Bool := !cs.isEmpty && cs.all isAsciiDigit

/-- Whether a text may stand behind the digits of a number. -/
def isExponent : List Char → Bool
  | [] => true
  | c :: cs => (c = 'e' || c = 'E') && areDigits (withoutSign cs)

/-- Whether a text is a number: digits, perhaps with a point among them and with an exponent, or the
name of a value that has none. -/
def isNumber (cs : List Char) : Bool :=
  let body := withoutSign cs
  let whole := body.takeWhile isAsciiDigit
  String.ofList (body.map Char.toLower) ∈ ["inf", "infinity", "nan"] ||
    match body.dropWhile isAsciiDigit with
    | '.' :: rest =>
      !(whole.isEmpty && (rest.takeWhile isAsciiDigit).isEmpty) &&
        isExponent (rest.dropWhile isAsciiDigit)
    | rest => !whole.isEmpty && isExponent rest

/-! ## Escapes -/

/-- The value of a hexadecimal digit. -/
def hexDigit? (c : Char) : Option Nat :=
  if isAsciiDigit c then some (c.toNat - '0'.toNat)
  else if 'a' ≤ c ∧ c ≤ 'f' then some (c.toNat - 'a'.toNat + 10)
  else if 'A' ≤ c ∧ c ≤ 'F' then some (c.toNat - 'A'.toNat + 10)
  else none

/-- The character whose code point is given in hexadecimal. -/
def ofHex? (digits : List Char) : Option Char := do
  let values ← digits.mapM hexDigit?
  let n := values.foldl (fun n d ↦ 16 * n + d) 0
  if n.isValidChar then some (Char.ofNat n) else none

/-- The number of hexadecimal digits behind a letter that announces them. -/
def hexWidth? (c : Char) : Option Nat := [('x', 2), ('u', 4), ('U', 8)].lookup c

/-- The control character that a letter stands for behind a backslash. -/
def control? (c : Char) : Option Char :=
  [('a', '\x07'), ('f', '\x0c'), ('t', '\t'), ('n', '\n'), ('r', '\r'), ('v', '\x0b')].lookup c

/-- Whether a character stands for itself behind a backslash. -/
def isEscapable (c : Char) : Bool := c.toNat < 128 && !c.isAlphanum && c ≠ '<' && c ≠ '>'

/-- What the text behind a backslash stands for, a character or else an anchor, and what follows. -/
def escape? : List Char → Option (Option Char × List Char)
  | [] => none
  | c :: cs =>
    match hexWidth? c with
    | some n => if cs.length < n then none else (ofHex? (cs.take n)).map fun d ↦ (some d, cs.drop n)
    | none =>
      if c = 'A' ∨ c = 'z' then some (none, cs)
      else if isEscapable c then some (some c, cs)
      else (control? c).map fun d ↦ (some d, cs)

/-! ## Classes -/

/-- What follows the opening bracket of a class, and the signs that are special there: a caret, and
hyphens or a closing bracket that belong to the class. -/
def afterOpening (cs : List Char) : List Char :=
  let cs := if cs.head? = some '^' then cs.tail else cs
  if cs.head? = some ']' then cs.tail else cs.dropWhile (· = '-')

/-- A character of a class, and what follows. -/
def member? : List Char → Option (Char × List Char)
  | [] => none
  | '\\' :: cs =>
    match escape? cs with
    | some (some c, rest) => some (c, rest)
    | _ => none
  | c :: cs => some (c, cs)

/-- What follows the first member, or the first range, of a class. -/
def afterMember? (cs : List Char) : Option (List Char) := do
  let (lo, rest) ← member? cs
  match rest with
  | '-' :: c :: _ =>
    if c = ']' ∨ c = '-' then pure rest
    else
      let (hi, rest) ← member? rest.tail
      if lo ≤ hi then pure rest else none
  | _ => pure rest

/-- What follows a class, of which the given number of classes inside it are open. A step consumes
at least one character, so the fuel need not exceed their number. -/
def afterClass? (inner : Nat) : (fuel : Nat) → List Char → Option (List Char)
  | 0, _ => none
  | fuel + 1, cs =>
    match cs with
    | ']' :: rest => if inner = 0 then some rest else afterClass? (inner - 1) fuel rest
    | '[' :: rest => afterClass? (inner + 1) fuel (afterOpening rest)
    | '&' :: '&' :: rest | '-' :: '-' :: rest | '~' :: '~' :: rest => afterClass? inner fuel rest
    | _ => do afterClass? inner fuel (← afterMember? cs)

/-! ## Groups -/

/-- Whether a text may be the name of a group. -/
def isGroupName : List Char → Bool
  | [] => false
  | c :: cs =>
    (c = '_' || (isAlphanumeric c && !isDecimalDigit c)) &&
      cs.all fun d ↦ isAlphanumeric d || d ∈ ['_', '.', '[', ']']

/-- Whether a text is a list of flags, of which those behind a hyphen are turned off. -/
def areFlags (flags : List Char) : Bool :=
  flags.all (· ∈ ['i', 'm', 's', 'U', 'u', 'R', 'x', '-']) && flags.Nodup &&
    flags.getLast? ≠ some '-' && 'i' ∉ flags.takeWhile (· ≠ '-')

/-- What is open where a pattern has been read up to some place. -/
structure Reading where
  /-- The number of groups that are open. -/
  groups : Nat
  /-- Whether there is an item in front that may be repeated. -/
  repeatable : Bool
  /-- The names of groups so far. -/
  names : List (List Char)

/-- What follows the head of a group behind its question mark, and what is open then. -/
def afterGroupHead? (r : Reading) (cs : List Char) : Option (Reading × List Char) :=
  let named (cs : List Char) : Option (Reading × List Char) :=
    let name := cs.takeWhile (· ≠ '>')
    match cs.dropWhile (· ≠ '>') with
    | _ :: rest =>
      if isGroupName name ∧ name ∉ r.names then some (⟨r.groups + 1, false, name :: r.names⟩, rest)
      else none
    | [] => none
  match cs with
  | '<' :: rest => named rest
  | 'P' :: '<' :: rest => named rest
  | _ =>
    let flags := cs.takeWhile fun c ↦ c ≠ ':' ∧ c ≠ ')'
    if areFlags flags then
      match cs.drop flags.length with
      | ':' :: rest => some (⟨r.groups + 1, false, r.names⟩, rest)
      | ')' :: rest => if flags = [] then none else some (⟨r.groups, false, r.names⟩, rest)
      | _ => none
    else none

/-! ## Whole patterns -/

/-- Whether a text completes a pattern that has been read up to it. A step consumes at least one
character, so the fuel need not exceed their number. -/
def completes (r : Reading) : (fuel : Nat) → List Char → Bool
  | _, [] => r.groups = 0
  | 0, _ :: _ => false
  | fuel + 1, c :: cs =>
    if c = '(' then
      match cs with
      | '?' :: rest =>
        match afterGroupHead? r rest with
        | some (r, rest) => completes r fuel rest
        | none => false
      | _ => completes ⟨r.groups + 1, false, r.names⟩ fuel cs
    else if c = ')' then r.groups ≠ 0 && completes ⟨r.groups - 1, true, r.names⟩ fuel cs
    else if c = '|' then completes { r with repeatable := false } fuel cs
    else if c ∈ ['*', '+', '?'] then r.repeatable && completes r fuel cs
    else if c = '\x7b' then false
    else
      let rest :=
        if c = '[' then afterClass? 0 (cs.length + 1) (afterOpening cs)
        else if c = '\\' then (escape? cs).map (·.2)
        else some cs
      match rest with
      | some rest => completes { r with repeatable := true } fuel rest
      | none => false

/-- Whether a text is a regular expression. -/
def isExpression (cs : List Char) : Bool := completes ⟨0, false, []⟩ cs.length cs

/-- Whether a text is a value that a directive may ask for. -/
def isValue (cs : List Char) : Bool := isNumber cs || isExpression cs

end Kay.Log.Pattern
