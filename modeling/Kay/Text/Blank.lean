import Kay.Text.CodePoints

/-!
# White space

The property White_Space: what separates tokens, and what is trimmed from a line of a session.
-/

namespace Kay.Text

/-- The code points with the property White_Space, Unicode 16. -/
def blanks : CodePoints where
  ranges :=
    [(0x9, 0xD), (0x20, 0x20), (0x85, 0x85), (0xA0, 0xA0), (0x1680, 0x1680), (0x2000, 0x200A),
    (0x2028, 0x2029), (0x202F, 0x202F), (0x205F, 0x205F), (0x3000, 0x3000)]

/-- Whether a character is white space. -/
def isBlank (c : Char) : Bool := blanks.contains c

/-- A line without the white space at its two ends. -/
def trim (cs : List Char) : List Char :=
  ((cs.dropWhile isBlank).reverse.dropWhile isBlank).reverse

end Kay.Text
