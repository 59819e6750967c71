import Kay.Text.Conjunct
import Kay.Text.Extender
import Kay.Text.Pictograph
import Kay.Text.SpacingMark

/-!
# Grapheme clusters

A text is cut where a reader would say that one character ends and the next one starts. Marks stay
with their letter, the parts of a Hangul syllable with each other, the halves of a flag, the
pictographs of one picture and the consonants of one conjunct as well.

Whether two neighbours stay together mostly depends on their classes alone, as it is stated by
`ClusterClass.attaches`. What else matters of the text in front of them is kept as a `ClusterTail`:
whether a flag, a picture or a conjunct is under way.
-/

namespace Kay.Text

/-! ## Classes -/

/-- How a character takes part in clusters. -/
inductive ClusterClass where
  | carriageReturn
  | lineFeed
  | control
  /-- A mark that belongs to what stands in front of it. -/
  | extender
  /-- An extender that binds the consonants on its two sides. -/
  | linker
  /-- The extender that keeps consonants from being bound. -/
  | nonJoiner
  /-- The extender that binds pictographs. -/
  | joiner
  | spacingMark
  /-- A sign that belongs to what stands behind it. -/
  | prepended
  /-- One half of a flag. -/
  | regional
  /-- The first consonants of a Hangul syllable. -/
  | lead
  | vowel
  /-- The last consonants of a Hangul syllable. -/
  | trail
  /-- A Hangul syllable without last consonants. -/
  | openSyllable
  /-- A Hangul syllable with last consonants. -/
  | closedSyllable
  | pictograph
  /-- A consonant that takes part in conjuncts. -/
  | consonant
  | other
deriving DecidableEq, Repr

/-- The code points that stand alone whatever is next to them, without the two line ends. -/
def clusterControls : CodePoints where
  ranges :=
    [(0x0, 0x9), (0xB, 0xC), (0xE, 0x1F), (0x7F, 0x9F), (0xAD, 0xAD), (0x61C, 0x61C),
    (0x180E, 0x180E), (0x200B, 0x200B), (0x200E, 0x200F), (0x2028, 0x202E), (0x2060, 0x206F),
    (0xFEFF, 0xFEFF), (0xFFF0, 0xFFFB), (0x13430, 0x1343F), (0x1BCA0, 0x1BCA3), (0x1D173, 0x1D17A),
    (0xE0000, 0xE001F), (0xE0080, 0xE00FF), (0xE01F0, 0xE0FFF)]

/-- The code points that belong to what stands behind them, Unicode 17. -/
def prependedSigns : CodePoints where
  ranges :=
    [(0x600, 0x605), (0x6DD, 0x6DD), (0x70F, 0x70F), (0x890, 0x891), (0x8E2, 0x8E2), (0xD4E, 0xD4E),
    (0x110BD, 0x110BD), (0x110CD, 0x110CD), (0x111C2, 0x111C3), (0x113D1, 0x113D1),
    (0x1193F, 0x1193F), (0x11941, 0x11941), (0x11A84, 0x11A89), (0x11D46, 0x11D46),
    (0x11F02, 0x11F02)]

namespace ClusterClass

/-- Whether a code point lies between two others. -/
def between (lo hi : Nat) (c : Char) : Bool := lo ≤ c.toNat && c.toNat ≤ hi

/-- Whether a character is an extender: by its property, or as a modifier of the skin colour. -/
def isMark (c : Char) : Bool := isExtender c || between 0x1F3FB 0x1F3FF c

/-- The class of a part of a Hangul syllable, or of a whole one. The syllables stand in the order of
their parts, 28 with the same beginning, of which the first has no last consonants. -/
def hangul? (c : Char) : Option ClusterClass :=
  if between 0x1100 0x115F c || between 0xA960 0xA97C c then some lead
  else if between 0x1160 0x11A7 c || between 0xD7B0 0xD7C6 c then some vowel
  else if between 0x11A8 0x11FF c || between 0xD7CB 0xD7FB c then some trail
  else if between 0xAC00 0xD7A3 c then
    some (if (c.toNat - 0xAC00) % 28 = 0 then openSyllable else closedSyllable)
  else if c.toNat = 0x16D63 || between 0x16D67 0x16D6A c then some vowel
  else none

/-- The class of a character. -/
def ofChar (c : Char) : ClusterClass :=
  if c = '\r' then carriageReturn
  else if c = '\n' then lineFeed
  else if clusterControls.contains c then control
  else if c = '\u200c' then nonJoiner
  else if c = '\u200d' then joiner
  else if isConjunctLinker c then linker
  else if isMark c then extender
  else if isSpacingMark c then spacingMark
  else if prependedSigns.contains c then prepended
  else if between 0x1F1E6 0x1F1FF c then regional
  else if isConjunctConsonant c then consonant
  else if isPictograph c then pictograph
  else (hangul? c).getD other

/-- Whether a class is one of the characters that stand alone. -/
def standsAlone : ClusterClass → Bool
  | carriageReturn | lineFeed | control => true
  | _ => false

/-- Whether two neighbours stay together whatever is in front of them. -/
def attaches : ClusterClass → ClusterClass → Bool
  | carriageReturn, lineFeed => true
  | lead, lead | lead, vowel | lead, openSyllable | lead, closedSyllable => true
  | openSyllable, vowel | openSyllable, trail | vowel, vowel | vowel, trail => true
  | closedSyllable, trail | trail, trail => true
  | first, second =>
    if first.standsAlone || second.standsAlone then false
    else
      match second with
      | extender | linker | nonJoiner | joiner | spacingMark => true
      | _ => first = prepended

end ClusterClass

/-! ## What is under way -/

/-- What the end of a text is in the midst of. -/
inductive ClusterTail where
  | plain
  /-- The first half of a flag. -/
  | flag
  /-- A pictograph, with or without marks. -/
  | picture
  /-- A pictograph and a joiner. -/
  | joinedPicture
  /-- A consonant, with or without marks. -/
  | conjunct
  /-- A consonant with a linker among its marks. -/
  | linkedConjunct
deriving DecidableEq, Repr

namespace ClusterTail

open ClusterClass

/-- What the end of a text is in the midst of after one more character. -/
def after : ClusterTail → ClusterClass → ClusterTail
  | flag, regional => plain
  | _, regional => flag
  | _, pictograph => picture
  | picture, extender | picture, linker | picture, nonJoiner => picture
  | picture, joiner => joinedPicture
  | _, consonant => conjunct
  | conjunct, extender | conjunct, joiner => conjunct
  | conjunct, linker => linkedConjunct
  | linkedConjunct, extender | linkedConjunct, joiner | linkedConjunct, linker => linkedConjunct
  | _, _ => plain

/-- Whether a character of the given class completes what is under way. -/
def isCompletedBy : ClusterTail → ClusterClass → Bool
  | flag, regional | joinedPicture, pictograph | linkedConjunct, consonant => true
  | _, _ => false

end ClusterTail

/-! ## Cutting -/

/-- The clusters of a text, by what the text in front of it is in the midst of. -/
def clustersFrom (tail : ClusterTail) : List Char → List (List Char)
  | [] => []
  | c :: cs =>
    let first := ClusterClass.ofChar c
    let tail := tail.after first
    match cs, clustersFrom tail cs with
    | d :: _, cluster :: clusters =>
      let second := ClusterClass.ofChar d
      if first.attaches second || tail.isCompletedBy second then (c :: cluster) :: clusters
      else [c] :: cluster :: clusters
    | _, clusters => [c] :: clusters

/-- The clusters of a text. -/
def clusters (cs : List Char) : List (List Char) := clustersFrom .plain cs

end Kay.Text
