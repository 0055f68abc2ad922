/-! # Disks

The place where a project lies, as the operations on it that commands need. Paths
are read from the directory of the project.
-/

namespace Concordance

/-- Why a file cannot be read. -/
inductive ReadFailure where
  | missing
  /-- There is something else at its place, or the text in it is none. -/
  | unreadable
  deriving Repr, DecidableEq

/-- A disk with effects in a monad. -/
structure Disk (m : Type → Type) where
  /-- The files below the directory of the project, by the names on the way to them. Those with a
  hidden name among these may be left out. -/
  files : m (List (List String))
  read : String → m (Except ReadFailure String)
  /-- Write a file, and the directories that it needs. Tells whether that was possible. -/
  write : String → String → m Bool

end Concordance
