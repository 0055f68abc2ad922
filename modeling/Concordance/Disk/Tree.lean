import Concordance.Assoc
import Concordance.Disk.Basic
import Concordance.Text.Blank

/-! # Disks in memory

A tree of files with their texts. A path is followed name by name, so that what
stands in its way is told apart from what is not there.
-/

namespace Concordance

structure FileTree where
  /-- The texts of files, by the names on the way to them. -/
  files : Assoc (List String) String := []
  /-- The directories below the root, by the names on the way to them. -/
  directories : List (List String) := []
  deriving Repr, DecidableEq

namespace FileTree

def isDirectory (t : FileTree) (place : List String) : Bool :=
  place.isEmpty || t.directories.contains place

/-- The longest name in bytes that a file can have. -/
def nameLimit : Nat := 255

def isName (name : String) : Bool :=
  name.utf8ByteSize ≤ nameLimit && !name.toList.contains '\x00'

/-- The pieces of a path that can be followed from the root of the tree. -/
def pieces? (path : String) : Option (List String) :=
  let pieces := Text.pieces '/' path
  if Text.startsWith "/" path || !pieces.all isName then none else some pieces

/-- Whether a piece of a path says to stay. -/
def stays (piece : String) : Bool := piece == "" || piece == "."

def follow (t : FileTree) (place : List String) : List String → Except ReadFailure (List String)
  | [] => .ok place
  | piece :: rest =>
      if t.files.has place then .error .unreadable
      else if !t.isDirectory place then .error .missing
      else if stays piece then follow t place rest
      else if piece == ".." then
        if place.isEmpty then .error .unreadable else follow t place.dropLast rest
      else follow t (place ++ [piece]) rest

def locate (t : FileTree) (path : String) : Except ReadFailure (List String) :=
  if path == "" then .error .missing
  else match pieces? path with
    | none => .error .unreadable
    | some pieces => t.follow [] pieces

def read (t : FileTree) (path : String) : Except ReadFailure String :=
  match t.locate path with
  | .error failure => .error failure
  | .ok place =>
      match t.files.get? place with
      | some text => .ok text
      | none => .error (if t.isDirectory place then .unreadable else .missing)

def addDirectory (t : FileTree) (place : List String) : FileTree :=
  if t.isDirectory place then t else { t with directories := place :: t.directories }

/-- Follow pieces of a path from a directory, and make the directories that are missing. -/
def enter (t : FileTree) (place : List String) : List String → Option (FileTree × List String)
  | [] => some (t, place)
  | piece :: rest =>
      if stays piece then enter t place rest
      else if piece == ".." then
        if place.isEmpty then none else enter t place.dropLast rest
      else if t.files.has (place ++ [piece]) then none
      else enter (t.addDirectory (place ++ [piece])) (place ++ [piece]) rest

/-- Write a file, and make the directories that it needs. -/
def write? (t : FileTree) (path text : String) : Option FileTree := do
  let pieces ← pieces? path
  let name ← pieces.getLast?
  let (t, place) ← t.enter [] pieces.dropLast
  if stays name || name == ".." || t.isDirectory (place ++ [name]) then none
  else some { t with files := t.files.put (place ++ [name]) text }

/-- Take out a file, or a directory with all that is in it. -/
def remove (t : FileTree) (path : String) : FileTree :=
  match t.locate path with
  | .error _ => t
  | .ok place => {
      files := t.files.filter fun (names, _) => !place.isPrefixOf names
      directories := t.directories.filter fun names => !place.isPrefixOf names }

/-- The files below a directory with their texts, by their paths. -/
def below (t : FileTree) (directory : String) : Assoc String String :=
  let named := t.files.map fun (names, text) => ("/".intercalate names, text)
  if directory == "" then named
  else match t.locate directory with
    | .error _ => []
    | .ok place =>
        (t.files.filter fun (names, _) => place.isPrefixOf names).map fun (names, text) =>
          ("/".intercalate names, text)

def ofFiles (files : List (String × String)) : FileTree :=
  files.foldl (fun t (path, text) => (t.write? path text).getD t) {}

end FileTree

def Disk.inMemory : Disk (StateM FileTree) where
  files := do return (← get).files.keys
  read := fun path => do return (← get).read path
  write := fun path text => do
    match (← get).write? path text with
    | some t => do
        set t
        return true
    | none => return false

end Concordance
