import Kay.Text.Extender
import Kay.Text.Printable

/-!
# Quoted text

How a piece of source is shown inside a message: between double quotes, on one line, and so that
every character can be told apart. Line ends, tabs, quotes and backslashes have short escapes; a
character that is not printable, that leaves its place blank, or that would attach itself to the one
before it, is written as its code point in hexadecimal.
-/

namespace Kay.Text

/-- Whether a character is one of the Hangul fillers, letters that leave their place blank. -/
def isFiller (c : Char) : Bool := c ∈ ['\u115f', '\u1160', '\u3164', '\uffa0']

/-- Whether a character is one of the halfwidth voicing marks. They extend a grapheme, but stand
beside the letter in front of them, not on it. -/
def isVoicingMark (c : Char) : Bool := c ∈ ['\uff9e', '\uff9f']

/-- Whether a character is shown as it is. -/
def isShown (c : Char) : Bool :=
  isPrintable c && !isFiller c && (isVoicingMark c || !isExtender c)

/-- The escape for a character that is shown by its code point. -/
def codePointEscape (c : Char) : List Char :=
  "\\u\x7b".toList ++ Nat.toDigits 16 c.toNat ++ "\x7d".toList

/-- How one character is shown between double quotes. -/
def quoteChar (c : Char) : List Char :=
  if c = '\x00' then "\\0".toList
  else if c = '\t' then "\\t".toList
  else if c = '\r' then "\\r".toList
  else if c = '\n' then "\\n".toList
  else if c = '"' then "\\\"".toList
  else if c = '\\' then "\\\\".toList
  else if isShown c then [c]
  else codePointEscape c

/-- A text between double quotes. -/
def quote (s : String) : String :=
  String.ofList ('"' :: s.toList.flatMap quoteChar ++ ['"'])

end Kay.Text
