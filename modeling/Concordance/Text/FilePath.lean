import Concordance.Text.Blank

/-! # File paths

Paths as lists of parts. A path is compared part by part, so that the content of
a directory stands together, and named by its last part.
-/

namespace Concordance

inductive PathPart where
  /-- The root of an absolute path. -/
  | root
  /-- The dot that a relative path starts with. -/
  | here
  /-- The containing directory. -/
  | up
  | name (text : String)
  deriving Repr, DecidableEq

namespace PathPart

/-- Roots come first, then dots, then double dots, then names. -/
def rank : PathPart → Nat
  | root => 0
  | here => 1
  | up => 2
  | name _ => 3

/-- The name of a part, empty for the parts without one. -/
def text : PathPart → String
  | name text => text
  | _ => ""

instance : Ord PathPart :=
  ⟨compareLex (compareOn rank) (compareOn text)⟩

end PathPart

namespace FilePath

/-- A piece of a path between slashes; empty pieces and inner dots say nothing. -/
def part? (piece : String) : Option PathPart :=
  if piece == "" || piece == "." then none
  else if piece == ".." then some .up
  else some (.name piece)

def parts (path : String) : List PathPart :=
  let pieces := Text.pieces '/' path
  let lead : List PathPart :=
    if Text.startsWith "/" path then [.root]
    else if pieces.head? == some "." then [.here]
    else []
  lead ++ pieces.filterMap part?

def le (a b : String) : Bool :=
  (compare (parts a) (parts b)).isLE

/-- The name of the file, if the path ends with a name. -/
def fileName? (path : String) : Option String :=
  match (parts path).getLast? with
  | some (.name text) => some text
  | _ => none

/-- The file's name without its last extension. A leading dot opens no extension. -/
def stem (path : String) : String :=
  match fileName? path with
  | none => ""
  | some name =>
      match Text.cutLast? '.' name.toList with
      | none | some ([], _) => name
      | some (before, _) => String.ofList before

/-- What follows the last dot of the file's name, unless that dot is its first character. -/
def extension? (path : String) : Option String :=
  match (fileName? path).map (Text.cutLast? '.' ·.toList) with
  | some (some (_ :: _, after)) => some (String.ofList after)
  | _ => none

/-- A path below a directory. An absolute path stays as it is. -/
def join (dir path : String) : String :=
  if Text.startsWith "/" path then path
  else if dir == "" || Text.endsWith "/" dir then dir ++ path
  else dir ++ "/" ++ path

end FilePath

end Concordance
