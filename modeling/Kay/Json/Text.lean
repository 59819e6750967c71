import Kay.Json.Basic
import Kay.Text.Decimal
import Kay.Text.Indentation

/-!
# JSON text

Two spellings of a value: on one line without blanks, and laid out with one item or field a line.
They differ in white space alone. Strings escape what JSON requires to be escaped and nothing else.
-/

namespace Kay.Json

open Text (indentation)

/-! ## Strings -/

/-- The escape of a control character, by its code point in four hexadecimal digits. -/
def controlEscape (c : Char) : List Char :=
  let digits := Nat.toDigits 16 c.toNat
  '\\' :: 'u' :: (List.replicate (4 - digits.length) '0' ++ digits)

/-- How one character is spelled inside a string. -/
def escapeChar (c : Char) : List Char :=
  if c = '"' then ['\\', '"']
  else if c = '\\' then ['\\', '\\']
  else if c = '\x08' then ['\\', 'b']
  else if c = '\x0c' then ['\\', 'f']
  else if c = '\n' then ['\\', 'n']
  else if c = '\r' then ['\\', 'r']
  else if c = '\t' then ['\\', 't']
  else if c.toNat < 0x20 then controlEscape c
  else [c]

/-- A string as spelled. -/
def stringText (s : String) : String :=
  String.ofList ('"' :: s.toList.flatMap escapeChar ++ ['"'])

/-- A truth value as spelled. -/
def booleanText (b : Bool) : String := if b then "true" else "false"

/-! ## On one line -/

mutual

/-- A value on one line. -/
def compact : Json → String
  | null => "null"
  | boolean b => booleanText b
  | integer n => Text.Decimal.text n
  | decimal spelling => spelling
  | string s => stringText s
  | array items => "[" ++ String.intercalate "," (compactItems items) ++ "]"
  | object fields => "\x7b" ++ String.intercalate "," (compactFields fields) ++ "\x7d"

/-- The items of an array, each on one line. -/
def compactItems : List Json → List String
  | [] => []
  | item :: items => item.compact :: compactItems items

/-- The fields of an object, each on one line. -/
def compactFields : List (String × Json) → List String
  | [] => []
  | (name, v) :: fields => (stringText name ++ ":" ++ v.compact) :: compactFields fields

end

/-! ## In lines -/

/-- Items or fields between brackets, each on a line of its own one level deeper. -/
def lines (opening closing : String) (level : Nat) (entries : List String) : String :=
  if entries.isEmpty then opening ++ closing
  else
    let lineEnd := "\n" ++ indentation (level + 1)
    opening ++ lineEnd ++ String.intercalate ("," ++ lineEnd) entries ++ "\n" ++
      indentation level ++ closing

mutual

/-- A value in lines, the first of which stands at the given level without its blanks. -/
def pretty : Json → Nat → String
  | null, _ => "null"
  | boolean b, _ => booleanText b
  | integer n, _ => Text.Decimal.text n
  | decimal spelling, _ => spelling
  | string s, _ => stringText s
  | array items, level => lines "[" "]" level (prettyItems items (level + 1))
  | object fields, level => lines "\x7b" "\x7d" level (prettyFields fields (level + 1))

/-- The items of an array, each in lines. -/
def prettyItems : List Json → Nat → List String
  | [], _ => []
  | item :: items, level => item.pretty level :: prettyItems items level

/-- The fields of an object, each in lines. -/
def prettyFields : List (String × Json) → Nat → List String
  | [], _ => []
  | (name, v) :: fields, level =>
    (stringText name ++ ": " ++ v.pretty level) :: prettyFields fields level

end

end Kay.Json
