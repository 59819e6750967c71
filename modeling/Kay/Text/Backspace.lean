import Kay.Text.Bytes
import Kay.Text.Cluster

/-!
# Backspaces

A line may contain backspaces, as it was typed. Each one takes back the grapheme cluster in front of
it that has not been taken back yet, if there is one. How long a cluster is gets noted in a single
byte when it is typed. So of a cluster of 256 bytes or more only the remainder is taken back.
-/

namespace Kay.Text

/-- A line while it is typed. -/
structure Typing where
  /-- The text so far, the last character first. -/
  backwards : List Char
  /-- The noted lengths of the clusters, the last one first. -/
  lengths : List Nat
deriving DecidableEq, Repr

namespace Typing

/-- Nothing has been typed. -/
def start : Typing := ⟨[], []⟩

/-- One cluster more has been typed. -/
def next (t : Typing) (cluster : List Char) : Typing :=
  if cluster = ['\x08'] then
    match t.lengths with
    | [] => t
    | n :: lengths => ⟨dropBytes n t.backwards, lengths⟩
  else ⟨cluster.reverse ++ t.backwards, byteLength cluster % 256 :: t.lengths⟩

end Typing

/-- What is left of a line when its backspaces have been followed. -/
def applyBackspaces (line : List Char) : List Char :=
  ((clusters line).foldl Typing.next .start).backwards.reverse

end Kay.Text
