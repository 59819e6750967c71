import Kay.Source.Basic
import Kay.Text.Pieces

/-!
# File trees

Files and directories as data, and what reading a path in them gives. The tree stands for the
current directory. Of what lies outside it nothing is known but that it is there: an absolute path
and a path that climbs above the root lead into a directory without entries.
-/

namespace Kay

/-- A file or a directory. -/
inductive FileTree where
  | file (bytes : ByteArray)
  | directory (entries : List (String × FileTree))
deriving Inhabited

namespace FileTree

/-- The directory without entries. -/
def empty : FileTree := directory []

/-- The entries of a directory. A file has none. -/
def entries : FileTree → List (String × FileTree)
  | directory es => es
  | file _ => []

/-- The tree with a node placed at a path, and with the directories that lead there. A directory
that is there already keeps its entries. -/
def place : List String → FileTree → FileTree → FileTree
  | [], node, old =>
    match node, old with
    | directory [], directory es => directory es
    | _, _ => node
  | name :: path, node, old =>
    let child := (old.entries.lookup name).getD empty
    directory ((name, place path node child) :: old.entries.filter (·.1 ≠ name))

/-- The names in a path, from left to right. -/
def pathNames (path : String) : List String := (Text.pieces '/' path.toList).map String.ofList

/-- Follows names from a node, of which the directories above it are given, the nearest first. A
name that stands for the node itself asks for a directory as any other does. -/
def walk (above : List FileTree) (here : FileTree) :
    List String → Except ReadFailure ByteArray
  | [] =>
    match here with
    | file bytes => .ok bytes
    | directory _ => .error .isADirectory
  | name :: names =>
    match here with
    | file _ => .error .notADirectory
    | directory es =>
      if name = "" ∨ name = "." then walk above here names
      else if name = ".." then
        match above with
        | [] => walk [] empty names
        | parent :: above => walk above parent names
      else
        match es.lookup name with
        | some child => walk (here :: above) child names
        | none => .error .notFound

/-- The bytes of the file at a path. The empty path leads nowhere. -/
def read (root : FileTree) (path : String) : Except ReadFailure ByteArray :=
  match pathNames path with
  | [""] => .error .notFound
  | "" :: names => walk [] empty names
  | names => walk [] root names

/-- A tree of files and directories at the given paths. -/
def ofEntries (es : List (String × FileTree)) : FileTree :=
  es.foldl (fun root e ↦
    place ((pathNames e.1).filter fun name ↦ name ≠ "" ∧ name ≠ ".") e.2 root) empty

end FileTree

end Kay
