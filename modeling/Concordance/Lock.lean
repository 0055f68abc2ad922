import Concordance.Digest
import Concordance.Entity
import Concordance.Json.Printer
import Concordance.Toml.Quoted
import Concordance.Toml.Reader

/-! # Locks

A lock records which pages of other bundles a build linked to, sorted by
identifier and each once, under a checksum of their summaries.
-/

namespace Concordance

namespace Entity

def le (a b : Entity) : Bool := Address.le a.reference b.reference

/-- The text that stands for a list of entities, one line for each in order of address. -/
def checksumText (es : List Entity) : String :=
  String.join ((es.mergeSort le).map fun e => e.json.compact ++ "\n")

def checksum (es : List Entity) : String := Digest.hex (checksumText es)

end Entity

/-- The record of one page of another bundle. -/
structure LockEntry where
  /-- The identifier of the page. -/
  identifier : String
  kind : String
  title : String
  /-- Where it is shown. -/
  url : String
  deriving Repr, DecidableEq

namespace LockEntry

def ofEntity (e : Entity) : LockEntry where
  identifier := e.reference.identifier
  kind := e.kind
  title := e.title
  url := e.url

def le (a b : LockEntry) : Bool := (compare a.identifier b.identifier).isLE

def fields (e : LockEntry) : List (String × String) :=
  [("identifier", e.identifier), ("kind", e.kind), ("title", e.title), ("url", e.url)]

def ofJson? (surplus : Bool) (j : Json) : Option LockEntry := do
  let r ← Decode.looseRecord surplus ["identifier", "kind", "title", "url"] j
  let identifier ← r.required "identifier" Decode.text
  let kind ← r.required "kind" Decode.text
  let title ← r.required "title" Decode.text
  let url ← r.required "url" Decode.text
  return { identifier, kind, title, url }

end LockEntry

/-- The pages of other bundles that a build linked to. -/
structure Lock where
  /-- The checksum of their summaries. -/
  checksum : String
  entries : List LockEntry
  deriving Repr, DecidableEq

inductive LockFlaw where
  /-- It is not in the form of a lock. -/
  | unreadable
  /-- An entry does not come before the one that follows it. -/
  | unsorted (first second : String)
  deriving Repr, DecidableEq

def LockFlaw.message : LockFlaw → String
  | unreadable => "toml deserialize: not a lockfile"
  | unsorted first second => s!"lockfile corrupt: entries not sorted: {first} >= {second}"

namespace Lock

def fileName : String := "docweave.lock"

/-- Of entries in a row with one identifier, keep the first. -/
def dropRepeats : List LockEntry → List LockEntry
  | [] => []
  | [e] => [e]
  | e :: f :: rest =>
      if e.identifier == f.identifier then dropRepeats (e :: rest)
      else e :: dropRepeats (f :: rest)

/-- The lock of entries in any order. Of several entries with one identifier the first counts. -/
def ofEntries (checksum : String) (entries : List LockEntry) : Lock where
  checksum := checksum
  entries := dropRepeats (entries.mergeSort LockEntry.le)

def ofEntities (es : List Entity) : Lock :=
  ofEntries (Entity.checksum es) (es.map LockEntry.ofEntity)

def text (l : Lock) : String :=
  let line (name value : String) : String := name ++ " = " ++ Toml.quoted value ++ "\n"
  let entry (e : LockEntry) : String :=
    "\n[[entries]]\n" ++ String.join (e.fields.map fun (name, value) => line name value)
  line "checksum" l.checksum
    ++ if l.entries.isEmpty then "entries = []\n" else String.join (l.entries.map entry)

/-- The first two entries in a row that are not in order. -/
def disorder? : List LockEntry → Option (LockEntry × LockEntry)
  | e :: f :: rest =>
      if LockEntry.le f e then some (e, f) else disorder? (f :: rest)
  | _ => none

/-- Accept a lock whose entries rise strictly. -/
def checked (l : Lock) : Except LockFlaw Lock :=
  match disorder? l.entries with
  | some (e, f) => .error (.unsorted e.identifier f.identifier)
  | none => .ok l

/-- Read the fields of a lock. An array that stands for the fields of an entry may hold a surplus
of items. -/
def ofJson? (j : Json) : Option Lock := do
  let r ← Decode.record ["checksum", "entries"] j
  let checksum ← r.required "checksum" Decode.text
  let entries ← r.defaulted "entries" [] (Decode.list (LockEntry.ofJson? true))
  return { checksum, entries }

def parse (text : String) : Except LockFlaw Lock :=
  match (Toml.parse? text).bind ofJson? with
  | none => .error .unreadable
  | some l => l.checked

end Lock

end Concordance
