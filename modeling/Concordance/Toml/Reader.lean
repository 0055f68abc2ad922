import Concordance.Toml.Scalar

/-! # Reading TOML

A document is read line by line into a tree of tables. A table that was written out
cannot be written again, and what was written as a value cannot be added to.
-/

namespace Concordance.Toml

/-- What a key stands for while a document is read. -/
inductive Node where
  /-- A value, complete as written. -/
  | value (j : Json)
  /-- A table: whether only its subtables were named so far, whether dotted keys made it, and its
  entries. -/
  | table (implicit dotted : Bool) (entries : List (String × Node))
  /-- Tables under one key, the last of which takes further entries. -/
  | tables (items : List (List (String × Node)))

/-- The entries of a table in written order. -/
abbrev Entries := List (String × Node)

namespace Node

mutual

def json : Node → Json
  | value j => j
  | table _ _ entries => .object (entriesJson entries)
  | tables items => .array (itemsJson items)

def entriesJson : List (String × Node) → List (String × Json)
  | [] => []
  | (key, node) :: rest => (key, json node) :: entriesJson rest

def itemsJson : List (List (String × Node)) → List Json
  | [] => []
  | entries :: rest => .object (entriesJson entries) :: itemsJson rest

end

end Node

namespace Entries

/-- Replace the node of a key, or add one. -/
def set (key : String) (node : Node) : Entries → Entries
  | [] => [(key, node)]
  | (k, n) :: rest => if k == key then (k, node) :: rest else (k, n) :: set key node rest

/-- Change the table at a path. Tables on the way are made where there are none, by dotted keys or
by a header. Dotted keys go through no table that a header wrote out. The change is told whether
dotted keys made the table. -/
def edit (byDots : Bool) (f : Bool → Entries → Option Entries) :
    List String → Bool → Entries → Option Entries
  | [], made, entries => f made entries
  | key :: path, _, entries =>
      match entries.lookup key with
      | none => do
          let sub ← edit byDots f path byDots []
          return set key (.table true byDots sub) entries
      | some (.value _) => none
      | some (.table implicit made sub) =>
          if byDots && !implicit then none
          else do
            let sub ← edit byDots f path made sub
            return set key (.table implicit made sub) entries
      | some (.tables items) => do
          let sub ← edit byDots f path false (items.getLastD [])
          return set key (.tables (items.dropLast ++ [sub])) entries

/-- Add a value under a dotted key, given the keys before its last. -/
def add (path : List String) (key : String) (j : Json) : Bool → Entries → Option Entries :=
  edit true (fun made entries =>
    if made == path.isEmpty || (entries.lookup key).isSome then none
    else some (entries ++ [(key, .value j)])) path

/-- Open the table of a header, given the keys before its last. -/
def openTable (path : List String) (key : String) : Entries → Option Entries :=
  edit false (fun _ entries =>
    match entries.lookup key with
    | none => some (entries ++ [(key, .table false false [])])
    | some (.table true false sub) => some (set key (.table false false sub) entries)
    | _ => none) path false

/-- Open another table under the key of a header, given the keys before its last. -/
def openItem (path : List String) (key : String) : Entries → Option Entries :=
  edit false (fun _ entries =>
    match entries.lookup key with
    | none => some (entries ++ [(key, .tables [[]])])
    | some (.tables items) => some (set key (.tables (items ++ [[]])) entries)
    | _ => none) path false

end Entries

/-- What follows spaces and tabs. -/
def skipGaps (s : List Char) : List Char := s.dropWhile isGap

/-- What follows a comment, if there is one: its line end or nothing. -/
def afterComment? (s : List Char) : Option (List Char) :=
  match s with
  | '#' :: rest =>
      let after := rest.dropWhile fun c => !isControl c
      match after with
      | [] => some []
      | '\n' :: _ => some after
      | '\r' :: '\n' :: _ => some after
      | _ => none
  | s => some s

/-- What follows gaps, comments and line ends. It recurs on a bound of the number of lines. -/
def skipTrivia? : Nat → List Char → Option (List Char)
  | 0, _ => none
  | fuel + 1, s => do
      match ← afterComment? (skipGaps s) with
      | '\n' :: rest => skipTrivia? fuel rest
      | '\r' :: '\n' :: rest => skipTrivia? fuel rest
      | s => some s

/-- Characters of keys without quotes. -/
def isKeyChar (c : Char) : Bool := c.isAlphanum || c == '_' || c == '-'

def readKey? (s : List Char) : Option (String × List Char) :=
  match s with
  | '\x22' :: _ => readString? false s
  | '\x27' :: _ => readString? false s
  | s =>
      match s.span isKeyChar with
      | ([], _) => none
      | (key, rest) => some (String.ofList key, rest)

/-- The number of keys that dots may join, and of brackets that may be open at once. -/
def depthLimit : Nat := 79

/-- Read keys with dots between them: those before the last, the last, and what follows. It recurs
on a bound of the number of keys. -/
def readKeysWithin? : Nat → List Char → Option (List String × String × List Char)
  | 0, _ => none
  | room + 1, s => do
      let (key, rest) ← readKey? (skipGaps s)
      match skipGaps rest with
      | '.' :: rest =>
          let (path, last, rest) ← readKeysWithin? room rest
          some (key :: path, last, rest)
      | rest => some ([], key, rest)

/-- Read keys with dots between them: those before the last, the last, and what follows. -/
def readKeys? (s : List Char) : Option (List String × String × List Char) :=
  readKeysWithin? depthLimit s

mutual

/-- Read a value with room for so many open brackets, by recursion on an amount that exceeds the
length of the text. -/
def readValue? : Nat → Nat → List Char → Option (Json × List Char)
  | 0, _, _ => none
  | fuel + 1, room, s =>
      match s with
      | '\x22' :: _ => (readString? true s).map fun (text, rest) => (.string text, rest)
      | '\x27' :: _ => (readString? true s).map fun (text, rest) => (.string text, rest)
      | '[' :: rest =>
          if room == 0 then none
          else (readItems? fuel (room - 1) rest).map fun (items, rest) => (.array items, rest)
      | '\x7b' :: rest =>
          if room == 0 then none
          else match skipGaps rest with
            | '\x7d' :: rest => some (.object [], rest)
            | rest =>
                (readInline? fuel (room - 1) [] rest).map fun (entries, rest) =>
                  (.object (Node.entriesJson entries), rest)
      | s =>
          let (text, rest) := cutScalar s
          (scalar? text).map (·, rest)

/-- Read the items of an array, up to and with its closing bracket. -/
def readItems? : Nat → Nat → List Char → Option (List Json × List Char)
  | 0, _, _ => none
  | fuel + 1, room, s => do
      match ← skipTrivia? (s.length + 1) s with
      | ']' :: rest => some ([], rest)
      | s =>
          let (item, rest) ← readValue? fuel room s
          match ← skipTrivia? (rest.length + 1) rest with
          | ',' :: rest =>
              (readItems? fuel room rest).map fun (items, rest) => (item :: items, rest)
          | ']' :: rest => some ([item], rest)
          | _ => none

/-- Read the entries of a table on one line, up to and with its closing brace. -/
def readInline? : Nat → Nat → Entries → List Char → Option (Entries × List Char)
  | 0, _, _, _ => none
  | fuel + 1, room, entries, s => do
      let (path, key, rest) ← readKeys? s
      match rest with
      | '=' :: rest =>
          let (j, rest) ← readValue? fuel room (skipGaps rest)
          let entries ← Entries.add path key j false entries
          match skipGaps rest with
          | ',' :: rest => readInline? fuel room entries rest
          | '\x7d' :: rest => some (entries, rest)
          | _ => none
      | _ => none

end

/-- A document read so far: its tables, and the path of the one that takes further entries. -/
structure Reading where
  entries : Entries := []
  /-- The path of the latest header. -/
  path : List String := []

namespace Reading

def readEntry? (r : Reading) (s : List Char) : Option (Reading × List Char) := do
  let (path, key, rest) ← readKeys? s
  match rest with
  | '=' :: rest =>
      let (j, rest) ← readValue? (2 * rest.length + 2) depthLimit (skipGaps rest)
      let entries ← Entries.edit false (Entries.add path key j) r.path false r.entries
      some ({ r with entries }, rest)
  | _ => none

def readHeader? (r : Reading) (s : List Char) : Option (Reading × List Char) := do
  match s with
  | '[' :: '[' :: rest =>
      let (path, key, rest) ← readKeys? rest
      match rest with
      | ']' :: ']' :: rest => some (⟨← Entries.openItem path key r.entries, path ++ [key]⟩, rest)
      | _ => none
  | '[' :: rest =>
      let (path, key, rest) ← readKeys? rest
      match rest with
      | ']' :: rest => some (⟨← Entries.openTable path key r.entries, path ++ [key]⟩, rest)
      | _ => none
  | _ => none

/-- Read the lines of a document, by recursion on a bound of their number. -/
def readLines? : Nat → Reading → List Char → Option Reading
  | 0, _, _ => none
  | fuel + 1, r, s => do
      let s := skipGaps s
      let (r, rest) ← match s with
        | [] => some (r, [])
        | c :: _ =>
            if c == '#' || c == '\n' || c == '\r' then some (r, s)
            else if c == '[' then r.readHeader? s
            else r.readEntry? s
      match ← afterComment? (skipGaps rest) with
      | [] => some r
      | '\n' :: rest => readLines? fuel r rest
      | '\r' :: '\n' :: rest => readLines? fuel r rest
      | _ => none

end Reading

/-- Read a document. A byte order mark may stand before it. -/
def parse? (text : String) : Option Json :=
  let s := match text.toList with
    | c :: rest => if c.toNat == 0xFEFF then rest else c :: rest
    | [] => []
  (Reading.readLines? (s.length + 1) {} s).map fun r => .object (Node.entriesJson r.entries)

end Concordance.Toml
