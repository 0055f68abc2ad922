import Concordance.Lock

/-! # Changes between locks

What happened to the pages of other bundles between a recorded lock and the
current one: pages that are gone, that are described anew, and that came.
-/

namespace Concordance

inductive LockChange where
  /-- It is no longer linked to. -/
  | removed (identifier : String)
  /-- It is described in another way. -/
  | changed (identifier : String)
  /-- It was not linked to before. -/
  | added (identifier : String)
  deriving Repr, DecidableEq

def LockChange.line : LockChange → String
  | removed identifier => "REMOVED " ++ identifier
  | changed identifier => "CHANGED " ++ identifier
  | added identifier => "ADDED   " ++ identifier

namespace Lock

def entry? (l : Lock) (identifier : String) : Option LockEntry :=
  l.entries.find? fun e => e.identifier == identifier

/-- What happened to a recorded page, if anything did. -/
def changeOf? (current : Lock) (recorded : LockEntry) : Option LockChange :=
  match current.entry? recorded.identifier with
  | none => some (.removed recorded.identifier)
  | some now => if now == recorded then none else some (.changed recorded.identifier)

/-- The changes: those of recorded pages first, and then the pages that came. -/
def changes (recorded current : Lock) : List LockChange :=
  recorded.entries.filterMap current.changeOf?
    ++ (current.entries.filter fun e => (recorded.entry? e.identifier).isNone).map fun e =>
      .added e.identifier

/-- The lines that report the changes, and the checksums if they differ. -/
def report (recorded current : Lock) : List String :=
  (recorded.changes current).map LockChange.line
    ++ if recorded.checksum == current.checksum then []
      else ["", s!"checksum {recorded.checksum} -> {current.checksum}"]

end Lock

end Concordance
