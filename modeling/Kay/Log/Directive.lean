import Kay.Log.Event
import Kay.Log.Pattern
import Kay.Text.Alphanumeric
import Kay.Text.Blank
import Kay.Text.Bytes
import Kay.Text.Pieces

/-!
# Log directives

A directive sets the least severity for some events: those of the targets that start with a given
text, those that have a given field, or all of them. It is written as a level alone, or as a scope
with a level behind an equals sign; a scope alone stands for all of its events.

```text
directive := level | scope [ "=" [ level ] ]
scope     := target [ limits ] | limits
limits    := "[" [ span ] [ "{" field [ "=" value ] "}" ] "]"
```

A scope may also be limited to a span, which is what brackets without a field do, even empty ones,
or to fields with a certain value. Nothing here opens spans, and values count in spans alone, so
directives of these two sorts apply to no event.
-/

namespace Kay.Log

open Text

/-! ## Levels -/

/-- A threshold, as the highest rank of severity that it admits. The threshold 0 admits none. -/
abbrev Threshold := Nat

/-- A word with the letters of ASCII in lower case. -/
def lower (cs : List Char) : String := String.ofList (cs.map Char.toLower)

/-- The threshold that a number stands for, in digits that may have a plus in front. -/
def thresholdOfNumber? (cs : List Char) : Option Threshold :=
  let digits := if cs.head? = some '+' then cs.tail else cs
  if Pattern.areDigits digits ∧ Decimal.value digits ≤ Severity.trace.rank then
    some (Decimal.value digits)
  else none

/-- The threshold that a number or a word stands for, in upper or lower case. -/
def threshold? (cs : List Char) : Option Threshold :=
  match thresholdOfNumber? cs with
  | some t => some t
  | none =>
    [("off", 0), ("error", 1), ("warn", 2), ("info", 3), ("debug", 4), ("trace", 5)].lookup
      (lower cs)

/-! ## Directives -/

/-- A field that is asked for. -/
structure FieldCondition where
  name : String
  /-- Whether the field has to have a certain value. -/
  hasValue : Bool
deriving DecidableEq, Repr

/-- A threshold and the events that it is set for. -/
structure Directive where
  /-- What the targets start with. -/
  target : Option String
  /-- The name of the span that the events lie in. -/
  span : Option String
  field : Option FieldCondition
  threshold : Threshold
deriving DecidableEq, Repr

namespace Directive

/-- The directive that sets a threshold for all events. -/
def everywhere (t : Threshold) : Directive := ⟨none, none, none, t⟩

/-- The names of the fields of an event. The message is one of them. -/
def fieldNames (e : Event) : List String := "message" :: e.fields.map (·.1)

/-- Whether a directive applies to an event. -/
def appliesTo (d : Directive) (e : Event) : Bool :=
  d.target.all (fun target ↦ target.toList.isPrefixOf e.target.toList) && d.span.isNone &&
    d.field.all fun f ↦ !f.hasValue && f.name ∈ fieldNames e

/-- How special two directives are, the one compared to the other: first by the length of the
target, then by whether a field is asked for, last by its name. -/
def compareSpecificity (d e : Directive) : Ordering :=
  let targetLength (d : Directive) := (d.target.map fun s ↦ s.length + 1).getD 0
  let fieldName (d : Directive) := (d.field.map fun f ↦ [f.name]).getD []
  (compare (targetLength d) (targetLength e)).then (compare (fieldName d) (fieldName e))

/-- The one of two directives that decides, the second of which was written later. -/
def decisive (earlier : Option Directive) (d : Directive) : Option Directive :=
  match earlier with
  | some e => if e.compareSpecificity d = .gt then some e else some d
  | none => some d

/-! ## Reading -/

/-- A text of which some part is being read. Blanks around it are passed over in telling its parts
apart. But the parts are cut out at the same distances from the start of the text itself, counted in
bytes. So blanks in front shift every part. -/
structure Written where
  text : List Char
deriving DecidableEq, Repr

namespace Written

/-- The part that starts behind `start` bytes and has the given length in bytes. -/
def part (w : Written) (start length : Nat) : List Char :=
  takeBytes length (dropBytes start w.text)

/-- The threshold behind a scope of the given length, by what is seen there. -/
def level? (w : Written) (scope : Nat) : (seen : List Char) → Option Threshold
  | [] => some Severity.trace.rank
  | '=' :: _ =>
    match dropBytes (scope + 1) w.text with
    | [] => some Severity.trace.rank
    | level => threshold? level
  | _ => none

/-- The condition that a nonempty text between braces states. -/
def condition? (cs : List Char) : Option FieldCondition :=
  match cs, pieces '=' cs with
  | _ :: _, [name] => some ⟨String.ofList name, false⟩
  | _ :: _, name :: value :: _ =>
    if Pattern.isValue value then some ⟨String.ofList name, true⟩ else none
  | _, _ => none

/-- The directive whose limits start behind `start` bytes, by what is seen there. -/
def limited? (w : Written) (target : Option String) (start : Nat) (seen : List Char) :
    Option Directive := do
  let inSpan (c : Char) : Bool := c ≠ ']' ∧ c ≠ '\x7b'
  let n := byteLength (seen.takeWhile inSpan)
  let span := String.ofList (w.part start n)
  match seen.dropWhile inSpan with
  | ']' :: rest => pure ⟨target, some span, none, ← w.level? (start + n + 1) rest⟩
  | '\x7b' :: rest =>
    let m := byteLength (rest.takeWhile (· ≠ '\x7d'))
    match rest.dropWhile (· ≠ '\x7d') with
    | '\x7d' :: ']' :: rest =>
      let field ← condition? (w.part (start + n + 1) m)
      let level ← w.level? (start + n + m + 3) rest
      pure ⟨target, if n = 0 then none else some span, some field, level⟩
    | _ => none
  | _ => none

/-- The directive that a text without any sign stands for: the threshold that it names, or else a
target with all of its events. -/
def bare (w : Written) : Directive :=
  match threshold? w.text with
  | some t => everywhere t
  | none => ⟨some (String.ofList w.text), none, none, Severity.trace.rank⟩

/-- Whether a directive may start with a character. -/
def isStart (c : Char) : Bool := isAlphanumeric c || c ∈ ['-', ':', '_', '[']

/-- The directive that a text stands for, if it is one. -/
def directive? (w : Written) : Option Directive := do
  let seen := trim w.text
  if seen.head?.any isStart then
    let inTarget (c : Char) : Bool := c ≠ '=' ∧ c ≠ '['
    let n := byteLength (seen.takeWhile inTarget)
    let target := String.ofList (w.part 0 n)
    match seen.dropWhile inTarget with
    | [] => pure w.bare
    | '[' :: rest => w.limited? (if n = 0 then none else some target) (n + 1) rest
    | rest => pure ⟨some target, none, none, ← w.level? n rest⟩
  else none

end Written

/-- The directive that a text stands for, if it is one. -/
def ofText? (cs : List Char) : Option Directive := (Written.mk cs).directive?

end Directive

end Kay.Log
