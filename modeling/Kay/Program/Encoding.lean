import Kay.Json.Basic
import Kay.Program.Basic
import Kay.Token.Basic

/-!
# Trees as JSON

Every kind of node has one JSON value that it is written as, and more that it can be read from: a
record may be an object in any order or an array, a form without content its bare name, and unknown
fields are passed over. Reading takes back what writing gave.

The two operations are the exception among the forms: their contents are records that are read from
objects alone.
-/

namespace Kay

/-- A field that has to be there. -/
def required (name : String) : Json.FieldName := ⟨name, false⟩

/-! ## Names, types and values -/

/-- The string that a value is. -/
def Json.string? : Json → Option String
  | .string s => some s
  | _ => none

/-- The list that a value is. -/
def Json.array? : Json → Option (List Json)
  | .array items => some items
  | _ => none

def Variable.toJson (v : Variable) : Json := .object [("name", .string v.name)]

def Variable.ofJson? (j : Json) : Option Variable :=
  match Json.record? [required "name"] j with
  | some [name] => name.string?.map Variable.mk
  | _ => none

def VarType.toJson : VarType → Json
  | integer => .string "Integer"
  | boolean => .string "Boolean"

def VarType.ofJson? (j : Json) : Option VarType :=
  match j.variant? with
  | some (name, .null) =>
    if name = "Integer" then some integer
    else if name = "Boolean" then some boolean
    else none
  | _ => none

def Value.toJson : Value → Json
  | integer n => .object [("Integer", .integer n.toInt)]
  | boolean b => .object [("Boolean", .boolean b)]

/-- The word of 32 bits that a value is. -/
def Json.int32? : Json → Option Int32
  | .integer n =>
    if Int32.minValue.toInt ≤ n ∧ n ≤ Int32.maxValue.toInt then some (Int32.ofInt n) else none
  | _ => none

/-- The offset that a value is. Offsets are words of 64 bits without sign. -/
def Json.offset? : Json → Option Nat
  | .integer n => if 0 ≤ n ∧ n.toNat < UInt64.size then some n.toNat else none
  | _ => none

def Value.ofJson? (j : Json) : Option Value :=
  match j.variant? with
  | some (name, content) =>
    if name = "Integer" then content.int32?.map integer
    else if name = "Boolean" then
      match content with
      | .boolean b => some (boolean b)
      | _ => none
    else none
  | none => none

def Operator.toJson (op : Operator) : Json := .string op.lexeme

def Operator.ofJson? (j : Json) : Option Operator := j.string?.map Operator.mk

/-! ## Places -/

def Span.toJson (s : Span) : Json := .object [("start", .integer s.start), ("end", .integer s.stop)]

def Span.ofJson? (j : Json) : Option Span :=
  match Json.record? [required "start", required "end"] j with
  | some [start, stop] => do
    let start ← start.offset?
    let stop ← stop.offset?
    pure ⟨start, stop⟩
  | _ => none

/-! ## Expressions -/

def Expression.toJson : Expression → Json
  | .variable v => .object [("Variable", v.toJson)]
  | .value v => .object [("Value", v.toJson)]
  | .unary op operand =>
    .object [("Unary", .object [("op", op.toJson), ("operand", operand.toJson)])]
  | .binary op left right =>
    .object [("Binary", .object [("op", op.toJson), ("left", left.toJson),
      ("right", right.toJson)])]

def Expression.ofJson? (j : Json) : Option Expression :=
  match _hv : j.variant? with
  | some (name, content) =>
    if name = "Variable" then (Variable.ofJson? content).map .variable
    else if name = "Value" then (Value.ofJson? content).map .value
    else if name = "Unary" then
      match _hf : content.fields? [required "op", required "operand"] with
      | some [op, operand] => do
        let op ← Operator.ofJson? op
        let operand ← Expression.ofJson? operand
        pure (.unary op operand)
      | _ => none
    else if name = "Binary" then
      match _hf : content.fields? [required "op", required "left", required "right"] with
      | some [op, left, right] => do
        let op ← Operator.ofJson? op
        let left ← Expression.ofJson? left
        let right ← Expression.ofJson? right
        pure (.binary op left right)
      | _ => none
    else none
  | none => none
termination_by j
decreasing_by
  all_goals
    have hc := Json.sizeOf_variant?_lt _hv
    exact Nat.lt_trans (Json.sizeOf_mem_fields?_lt _hf (by simp)) hc

/-! ## Statements -/

mutual

def Statement.toJson : Statement → Json
  | .skip => .string "Skip"
  | .assignment target source =>
    .object [("Assignment", .object [("target", target.toJson), ("source", source.toJson)])]
  | .conditional test thenBranch none =>
    .object [("Conditional", .object [("test", test.toJson), ("then_branch", thenBranch.toJson),
      ("else_branch", .null)])]
  | .conditional test thenBranch (some elseBranch) =>
    .object [("Conditional", .object [("test", test.toJson), ("then_branch", thenBranch.toJson),
      ("else_branch", elseBranch.toJson)])]
  | .loop test body => .object [("Loop", .object [("test", test.toJson), ("body", body.toJson)])]
  | .block members =>
    .object [("Block", .object [("members", .array (Statement.toJsonAll members))])]

/-- The values of statements in sequence. -/
def Statement.toJsonAll : List Statement → List Json
  | [] => []
  | m :: ms => m.toJson :: Statement.toJsonAll ms

end

def Assignment.toJson (a : Assignment) : Json :=
  .object [("target", a.target.toJson), ("source", a.source.toJson)]

def Conditional.toJson (c : Conditional) : Json :=
  .object [("test", c.test.toJson), ("then_branch", c.thenBranch.toJson),
    ("else_branch", (c.elseBranch.map Statement.toJson).getD .null)]

def Loop.toJson (l : Loop) : Json :=
  .object [("test", l.test.toJson), ("body", l.body.toJson)]

def Block.toJson (b : Block) : Json :=
  .object [("members", .array (b.members.map Statement.toJson))]

def Assignment.ofJson? (j : Json) : Option Assignment :=
  match Json.record? [required "target", required "source"] j with
  | some [target, source] => do
    let target ← Variable.ofJson? target
    let source ← Expression.ofJson? source
    pure ⟨target, source⟩
  | _ => none

/-- The fields of a conditional. The second branch may be missing. -/
def Conditional.fieldNames : List Json.FieldName :=
  [required "test", required "then_branch", ⟨"else_branch", true⟩]

mutual

def Statement.ofJson? (j : Json) : Option Statement :=
  match _hv : j.variant? with
  | some (name, content) =>
    if name = "Skip" then
      match content with
      | .null => some .skip
      | _ => none
    else if name = "Assignment" then (Assignment.ofJson? content).map Assignment.toStatement
    else if name = "Conditional" then (Conditional.ofJson? content).map Conditional.toStatement
    else if name = "Loop" then (Loop.ofJson? content).map Loop.toStatement
    else if name = "Block" then (Block.ofJson? content).map Block.toStatement
    else none
  | none => none
termination_by sizeOf j
decreasing_by all_goals exact Json.sizeOf_variant?_lt _hv

def Conditional.ofJson? (j : Json) : Option Conditional :=
  match _hf : Json.record? Conditional.fieldNames j with
  | some [test, thenBranch, elseBranch] => do
    let test ← Expression.ofJson? test
    let thenBranch ← Statement.ofJson? thenBranch
    if elseBranch.isNull then
      pure ⟨test, thenBranch, none⟩
    else
      let elseBranch ← Statement.ofJson? elseBranch
      pure ⟨test, thenBranch, some elseBranch⟩
  | _ => none
termination_by sizeOf j
decreasing_by all_goals exact Json.sizeOf_mem_record?_lt _hf (by simp)

def Loop.ofJson? (j : Json) : Option Loop :=
  match _hf : Json.record? [required "test", required "body"] j with
  | some [test, body] => do
    let test ← Expression.ofJson? test
    let body ← Statement.ofJson? body
    pure ⟨test, body⟩
  | _ => none
termination_by sizeOf j
decreasing_by all_goals exact Json.sizeOf_mem_record?_lt _hf (by simp)

def Block.ofJson? (j : Json) : Option Block :=
  match _hf : Json.record? [required "members"] j with
  | some [.array items] => (Statement.ofJsonAll? items).map Block.mk
  | _ => none
termination_by sizeOf j
decreasing_by
  have := Json.sizeOf_mem_record?_lt _hf (List.mem_singleton.2 rfl)
  simp only [Json.array.sizeOf_spec] at this
  omega

/-- Statements in sequence, if every value is one. -/
def Statement.ofJsonAll? (items : List Json) : Option (List Statement) :=
  match items with
  | [] => some []
  | item :: items => do
    let m ← Statement.ofJson? item
    let ms ← Statement.ofJsonAll? items
    pure (m :: ms)
termination_by sizeOf items

end

/-! ## Programs -/

def Declaration.toJson (d : Declaration) : Json :=
  .object [("ty", d.ty.toJson), ("variable", d.declared.toJson)]

def Declaration.ofJson? (j : Json) : Option Declaration :=
  match Json.record? [required "ty", required "variable"] j with
  | some [ty, declared] => do
    let ty ← VarType.ofJson? ty
    let declared ← Variable.ofJson? declared
    pure ⟨ty, declared⟩
  | _ => none

def Program.toJson (p : Program) : Json :=
  .object [("declarations", .array (p.declarations.map Declaration.toJson)),
    ("body", p.body.toJson)]

def Program.ofJson? (j : Json) : Option Program :=
  match Json.record? [required "declarations", required "body"] j with
  | some [declarations, body] => do
    let items ← declarations.array?
    let declarations ← items.mapM Declaration.ofJson?
    let body ← Block.ofJson? body
    pure ⟨declarations, body⟩
  | _ => none

end Kay
