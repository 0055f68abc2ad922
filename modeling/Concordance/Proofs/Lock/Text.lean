import Mathlib
import Concordance.Lock
import Concordance.Proofs.Toml.Lines

/-! # The text of a lock is read as it was written

The text of a lock is read entry by entry, each into a table of its own. So the lock that
was written comes back, whatever texts are in it.
-/

namespace Concordance

open Toml

namespace LockEntry

def written (e : LockEntry) : List Char :=
  '\n' :: '[' :: '[' :: ("entries".toList ++ ']' :: ']' :: '\n' ::
    e.fields.flatMap fun (name, value) => keyLine name (quoted value).toList)

def json (e : LockEntry) : Json := .object (e.fields.map fun (name, value) => (name, .string value))

theorem ofJson?_json (surplus : Bool) (e : LockEntry) : ofJson? surplus e.json = some e := by
  rfl

theorem bare_of_mem_fields {e : LockEntry} {field : String × String} (member : field ∈ e.fields) :
    IsBareKey field.1 := by
  have bare : ∀ name ∈ e.fields.map Prod.fst, IsBareKey name := by
    change ∀ name ∈ ["identifier", "kind", "title", "url"], IsBareKey name
    decide
  exact bare _ (List.mem_map_of_mem member)

end LockEntry

namespace Lock

def json (l : Lock) : Json :=
  .object [("checksum", .string l.checksum), ("entries", .array (l.entries.map LockEntry.json))]

theorem ofJson?_json (l : Lock) : ofJson? l.json = some l := by
  have entries : (l.entries.map LockEntry.json).mapM (LockEntry.ofJson? true) =
      some l.entries := by
    have each : LockEntry.ofJson? true ∘ LockEntry.json = some :=
      funext (LockEntry.ofJson?_json true)
    rw [List.mapM_map, each]
    exact (List.mapM_pure (f := id)).trans (congrArg some (List.map_id _))
  have read : ofJson? l.json = (do
      let entries ← (l.entries.map LockEntry.json).mapM (LockEntry.ofJson? true)
      return { checksum := l.checksum, entries }) := rfl
  rw [read, entries]
  rfl

theorem toList_text (l : Lock) :
    l.text.toList = keyLine "checksum" (quoted l.checksum).toList ++
      if l.entries = [] then keyLine "entries" ['[', ']']
      else l.entries.flatMap LockEntry.written := by
  have line (name value : String) :
      (name ++ " = " ++ quoted value ++ "\n").toList = keyLine name (quoted value).toList := by
    simp [keyLine]
  have entry (e : LockEntry) : ("\n[[entries]]\n" ++ String.join (e.fields.map fun (name, value) =>
      name ++ " = " ++ quoted value ++ "\n")).toList = e.written := by
    simp only [String.toList_append, String.toList_join, List.flatMap_map, line, LockEntry.written]
    simp
  have empty : "entries = []\n".toList = keyLine "entries" ['[', ']'] := by decide
  rw [text, String.toList_append, line, apply_ite String.toList, String.toList_join,
    List.flatMap_map, empty]
  simp only [entry, List.isEmpty_iff]

def textNodes (fields : List (String × String)) : Entries :=
  fields.map fun (name, value) => (name, .value (.string value))

/-- The tables of a lock of which some entries were read. -/
def tables (checksum : String) (items : List Entries) : Entries :=
  ("checksum", .value (.string checksum)) ::
    if items = [] then [] else [("entries", .tables items)]

theorem textNodes_nil : textNodes [] = [] := rfl

variable {checksum : String} {items : List Entries} {rest : List Char} {fuel : Nat}

theorem tables_append (checksum : String) (items : List Entries) (sub : Entries) :
    tables checksum (items ++ [sub]) =
      [("checksum", .value (.string checksum)), ("entries", .tables (items ++ [sub]))] := by
  rw [tables, if_neg (List.concat_ne_nil sub items)]

theorem openItem_tables (checksum : String) (items : List Entries) :
    Entries.openItem [] "entries" (tables checksum items) =
      some (tables checksum (items ++ [[]])) := by
  rw [tables_append]
  cases items with
  | nil => exact Entries.openItem_first rfl
  | cons item items => exact Entries.openItem_next rfl

theorem edit_tables {sub : Entries} {name : String} (missing : sub.lookup name = none) (j : Json) :
    Entries.edit false (Entries.add [] name j) ["entries"] false
      (tables checksum (items ++ [sub])) =
        some (tables checksum (items ++ [sub ++ [(name, .value j)]])) := by
  rw [tables_append, tables_append, Entries.edit_item rfl, Entries.add_new missing]
  rfl

theorem lookup_textNodes {fields : List (String × String)} {name : String}
    (missing : name ∉ fields.map Prod.fst) : (textNodes fields).lookup name = none := by
  induction fields with
  | nil => rfl
  | cons field fields ih =>
      rw [List.map_cons, List.mem_cons, not_or] at missing
      rw [textNodes, List.map_cons, List.lookup_cons, beq_eq_false_iff_ne.mpr missing.1]
      exact ih missing.2

theorem readLines?_fields {fields read : List (String × String)}
    (bare : ∀ field ∈ fields, IsBareKey field.1)
    (distinct : ((read ++ fields).map Prod.fst).Nodup) :
    Reading.readLines? (fuel + fields.length)
        ⟨tables checksum (items ++ [textNodes read]), ["entries"]⟩
        ((fields.flatMap fun (name, value) => keyLine name (quoted value).toList) ++ rest) =
      Reading.readLines? fuel
        ⟨tables checksum (items ++ [textNodes (read ++ fields)]), ["entries"]⟩ rest := by
  induction fields generalizing read with
  | nil => simp
  | cons field fields ih =>
      rw [List.forall_mem_cons] at bare
      have missing : field.1 ∉ read.map Prod.fst := by
        rw [List.map_append, List.map_cons] at distinct
        exact fun member => (List.nodup_append.mp distinct).2.2 _ member _ List.mem_cons_self rfl
      have next : textNodes read ++ [(field.1, .value (.string field.2))] =
          textNodes (read ++ [field]) := by
        simp [textNodes]
      rw [List.flatMap_cons, List.append_assoc, List.length_cons, ← Nat.add_assoc,
        Reading.readLines?_keyLine bare.1 (reads_quoted field.2),
        edit_tables (lookup_textNodes missing), Option.bind_some, next,
        ih bare.2 (by rwa [List.append_assoc]), List.append_assoc]
      rfl

theorem readLines?_entries (checksum : String) (items : List Entries)
    (entries : List LockEntry) (path : List String) (enough : 6 * entries.length < fuel) :
    (Reading.readLines? fuel ⟨tables checksum items, path⟩
      (entries.flatMap LockEntry.written)).map Reading.entries =
        some (tables checksum (items ++ entries.map fun e => textNodes e.fields)) := by
  induction entries generalizing items path fuel with
  | nil =>
      obtain ⟨fuel, rfl⟩ : ∃ fuel', fuel = fuel' + 1 := ⟨fuel - 1, by omega⟩
      simp [Reading.readLines?_end]
  | cons e entries ih =>
      rw [List.length_cons] at enough
      obtain ⟨fuel, rfl⟩ : ∃ fuel', fuel = fuel' + e.fields.length + 1 + 1 :=
        ⟨fuel - 6, by change _ = fuel - 6 + 4 + 1 + 1; omega⟩
      have less : 6 * entries.length < fuel := by
        change _ < fuel + 4 + 1 + 1 at enough
        omega
      have distinct : (([] ++ e.fields).map Prod.fst).Nodup := by
        change ["identifier", "kind", "title", "url"].Nodup
        decide
      rw [List.flatMap_cons, LockEntry.written]
      simp only [List.cons_append, List.append_assoc]
      rw [Reading.readLines?_blank, Reading.readLines?_item (by decide)]
      simp only [openItem_tables, Option.bind_some]
      rw [← textNodes_nil, readLines?_fields (fun _ => LockEntry.bare_of_mem_fields) distinct,
        List.nil_append, ih _ _ less, List.append_assoc]
      rfl

theorem entriesJson_textNodes (fields : List (String × String)) :
    Node.entriesJson (textNodes fields) = fields.map fun (name, value) => (name, .string value) := by
  induction fields with
  | nil => rfl
  | cons field fields ih =>
      rw [List.map_cons, ← ih]
      rfl

theorem itemsJson_textNodes (entries : List LockEntry) :
    Node.itemsJson (entries.map fun e => textNodes e.fields) = entries.map LockEntry.json := by
  induction entries with
  | nil => rfl
  | cons e entries ih =>
      rw [List.map_cons, List.map_cons, Node.itemsJson, ih, entriesJson_textNodes]
      rfl

theorem length_le_written (entries : List LockEntry) :
    6 * entries.length ≤ (entries.flatMap LockEntry.written).length := by
  induction entries with
  | nil => rfl
  | cons e entries ih =>
      rw [List.flatMap_cons, List.length_append, List.length_cons]
      simp only [LockEntry.written, List.length_cons, List.length_append]
      omega

theorem readLines?_text (l : Lock) {fuel : Nat} (enough : 6 * l.entries.length + 2 < fuel) :
    (Reading.readLines? fuel {} l.text.toList).map (fun r => Node.entriesJson r.entries) =
      some [("checksum", .string l.checksum),
        ("entries", .array (l.entries.map LockEntry.json))] := by
  have first : Entries.edit false (Entries.add [] "checksum" (.string l.checksum)) [] false [] =
      some (tables l.checksum []) := rfl
  obtain ⟨fuel, rfl⟩ : ∃ fuel', fuel = fuel' + 3 := ⟨fuel - 3, by omega⟩
  rw [toList_text, Reading.readLines?_keyLine (by decide) (reads_quoted _)]
  simp only [first, Option.bind_some]
  split
  · rename_i isEmpty
    have second : Entries.edit false (Entries.add [] "entries" (.array [])) [] false
        (tables l.checksum []) =
          some (tables l.checksum [] ++ [("entries", .value (.array []))]) := rfl
    rw [← List.append_nil (keyLine "entries" _),
      Reading.readLines?_keyLine (by decide) reads_empty]
    simp only [second, Option.bind_some, isEmpty]
    rfl
  · rename_i nonempty
    have items : l.entries.map (fun e => textNodes e.fields) ≠ [] := by simpa using nonempty
    have less : 6 * l.entries.length < fuel + 2 := by omega
    obtain ⟨r, read, same⟩ := Option.map_eq_some_iff.mp
      (readLines?_entries l.checksum [] l.entries [] less)
    rw [List.nil_append, tables, if_neg items] at same
    rw [read, Option.map_some, same]
    simp only [Node.entriesJson, Node.json, itemsJson_textNodes]

theorem parse?_text (l : Lock) : Toml.parse? l.text = some l.json := by
  have plain : ∀ c ∈ l.text.toList.head?, c.toNat ≠ 0xFEFF := by
    rw [toList_text, keyLine]
    simp
  have enough : 6 * l.entries.length + 2 < l.text.toList.length + 1 := by
    have long := length_le_written l.entries
    have first : 2 ≤ (keyLine "checksum" (quoted l.checksum).toList).length := by
      simp [keyLine]
    rw [toList_text, List.length_append]
    split
    · rename_i isEmpty
      rw [isEmpty, List.length_nil]
      omega
    · omega
  obtain ⟨r, read, same⟩ := Option.map_eq_some_iff.mp (readLines?_text l enough)
  rw [Toml.parse?_plain plain, read, Option.map_some, same, json]

/-- A lock that was written is read as it is, and then its order is checked. -/
theorem parse_text (l : Lock) : parse l.text = l.checked := by
  rw [parse, parse?_text, Option.bind_some, ofJson?_json]

end Lock

end Concordance
