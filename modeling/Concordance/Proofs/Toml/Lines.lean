import Mathlib
import Concordance.Proofs.Toml.Quoted
import Concordance.Toml.Reader

/-! # Lines of a TOML document

What reading one line does to the tables read so far: a key with a value, the header of
a table in an array, or nothing.
-/

namespace Concordance.Toml

section Keys

variable {name : String} {c : Char} {s t rest : List Char}

/-- A key that needs no quotes. -/
def IsBareKey (name : String) : Prop :=
  name.toList ≠ [] ∧ name.toList.all isKeyChar = true

instance : Decidable (IsBareKey name) :=
  inferInstanceAs (Decidable (_ ∧ _))

/-- Characters that stand before a key, or in place of one. -/
def openers : List Char := [' ', '\t', '\x22', '\x27', '#', '\n', '\r', '[']

theorem not_opener (plain : isKeyChar c = true) : c ∉ openers := by
  intro member
  simp only [openers, List.mem_cons, List.not_mem_nil, or_false] at member
  rcases member with rfl | rfl | rfl | rfl | rfl | rfl | rfl | rfl <;>
    exact absurd plain (by decide)

theorem skipGaps_cons (mark : isGap c = false) (s : List Char) : skipGaps (c :: s) = c :: s :=
  List.dropWhile_cons_of_neg (by simp [mark])

theorem exists_bare (bare : IsBareKey name) :
    ∃ c s, name.toList = c :: s ∧ c ∉ openers := by
  obtain ⟨c, s, chars⟩ := List.exists_cons_of_ne_nil bare.1
  exact ⟨c, s, chars, not_opener (List.all_eq_true.mp bare.2 c (chars ▸ List.mem_cons_self))⟩

theorem skipGaps_bare (bare : IsBareKey name) :
    skipGaps (name.toList ++ rest) = name.toList ++ rest := by
  obtain ⟨c, s, chars, other⟩ := exists_bare bare
  simp only [openers, List.mem_cons, not_or] at other
  rw [chars, List.cons_append, skipGaps_cons (by simp [isGap, other])]

theorem readKey?_bare (bare : IsBareKey name) (ends : ∀ c ∈ rest.head?, isKeyChar c = false) :
    readKey? (name.toList ++ rest) = some (name, rest) := by
  have stops : rest.takeWhile isKeyChar = [] ∧ rest.dropWhile isKeyChar = rest := by
    cases rest with
    | nil => exact ⟨rfl, rfl⟩
    | cons c rest => simp [ends c rfl]
  have cut : (name.toList ++ rest).span isKeyChar = (name.toList, rest) := by
    have all := List.all_eq_true.mp bare.2
    rw [List.span_eq_takeWhile_dropWhile, List.takeWhile_append_of_pos all,
      List.dropWhile_append_of_pos all, stops.1, stops.2, List.append_nil]
  obtain ⟨c, s, chars, other⟩ := exists_bare bare
  simp only [openers, List.mem_cons, not_or] at other
  rw [readKey?]
  · rw [cut, chars]
    simp only
    rw [← chars, String.ofList_toList]
  · intro t same
    rw [chars] at same
    exact other.2.2.1 (List.cons.inj same).1
  · intro t same
    rw [chars] at same
    exact other.2.2.2.1 (List.cons.inj same).1

theorem readKeys?_bare (bare : IsBareKey name) (ends : ∀ c ∈ rest.head?, isKeyChar c = false)
    (single : (skipGaps rest).head? ≠ some '.') :
    readKeys? (name.toList ++ rest) = some ([], name, skipGaps rest) := by
  rw [readKeys?, depthLimit, readKeysWithin?, skipGaps_bare bare]
  simp only [readKey?_bare bare ends, Option.bind_eq_bind, Option.bind_some]
  cases after : skipGaps rest with
  | nil => rfl
  | cons c s =>
      rw [after] at single
      split
      · simp_all
      · rfl

end Keys

theorem exists_quoted (value : String) :
    ∃ t, (quoted value).toList = '\x22' :: t ∨ (quoted value).toList = '\x27' :: t := by
  rw [quoted, String.toList_ofList]
  cases plainestForm value.toList with
  | basic => exact ⟨_, .inl rfl⟩
  | literal => exact ⟨_, .inr rfl⟩
  | longBasic => exact ⟨_, .inl rfl⟩
  | longLiteral => exact ⟨_, .inr rfl⟩

/-- A value is read from a text that starts with it, up to the end of its line. -/
structure Reads (value : List Char) (j : Json) : Prop where
  starts : ∀ rest, skipGaps (value ++ rest) = value ++ rest
  reads : ∀ fuel room rest, 0 < room →
    readValue? (fuel + 2) room (value ++ '\n' :: rest) = some (j, '\n' :: rest)

theorem reads_quoted (value : String) : Reads (quoted value).toList (.string value) := by
  obtain ⟨t, chars⟩ := exists_quoted value
  constructor
  · intro rest
    rcases chars with chars | chars <;> rw [chars] <;> rfl
  · intro fuel room rest _
    have ends : ('\n' :: rest).head? ≠ some '\x22' ∧ ('\n' :: rest).head? ≠ some '\x27' := by
      simp
    have read := readString?_quoted value ends
    rcases chars with chars | chars
    all_goals
      rw [chars, List.cons_append] at read ⊢
      rw [readValue?, read]
      rfl

theorem reads_empty : Reads ['[', ']'] (.array []) := by
  constructor
  · exact fun rest => rfl
  · intro fuel room rest open_
    change readValue? (fuel + 2) room ('[' :: ']' :: '\n' :: rest) = _
    rw [readValue?, if_neg (by simpa using open_.ne')]
    rfl

def keyLine (name : String) (value : List Char) : List Char :=
  name.toList ++ ' ' :: '=' :: ' ' :: (value ++ ['\n'])

namespace Reading

variable {r : Reading} {fuel : Nat} {rest value : List Char} {name : String} {j : Json}

theorem readLines?_end : readLines? (fuel + 1) r [] = some r := rfl

theorem readLines?_blank : readLines? (fuel + 1) r ('\n' :: rest) = readLines? fuel r rest := rfl

theorem readEntry?_keyLine (bare : IsBareKey name) (reads : Reads value j) :
    r.readEntry? (keyLine name value ++ rest) =
      (Entries.edit false (Entries.add [] name j) r.path false r.entries).map
        fun entries => ({ r with entries }, '\n' :: rest) := by
  have equals (s : List Char) : skipGaps (' ' :: '=' :: s) = '=' :: s := rfl
  have after : skipGaps (' ' :: (value ++ '\n' :: rest)) = value ++ '\n' :: rest :=
    reads.starts ('\n' :: rest)
  simp only [keyLine, List.append_assoc, List.cons_append, List.nil_append]
  unfold readEntry?
  rw [readKeys?_bare bare (by simp; decide) (by simp [equals]), equals]
  simp only [after, reads.reads _ depthLimit rest (by decide), Option.bind_eq_bind,
    Option.bind_some]
  cases Entries.edit false (Entries.add [] name j) r.path false r.entries <;> rfl

theorem readLines?_keyLine (bare : IsBareKey name) (reads : Reads value j) :
    readLines? (fuel + 1) r (keyLine name value ++ rest) =
      (Entries.edit false (Entries.add [] name j) r.path false r.entries).bind
        fun entries => readLines? fuel { r with entries } rest := by
  have read : r.readEntry? (keyLine name value ++ rest) = _ := readEntry?_keyLine bare reads
  obtain ⟨c, s, chars, other⟩ := exists_bare bare
  simp only [openers, List.mem_cons, not_or] at other
  have start : skipGaps (keyLine name value ++ rest) = keyLine name value ++ rest := by
    rw [keyLine, List.append_assoc, skipGaps_bare bare]
  have first : keyLine name value ++ rest =
      c :: (s ++ ' ' :: '=' :: ' ' :: (value ++ ['\n']) ++ rest) := by
    rw [keyLine, chars]
    rfl
  rw [readLines?, start]
  rw [first] at read ⊢
  have mark : (c == '#' || c == '\n' || c == '\r') = false ∧ (c == '[') = false := by
    simp [other]
  simp only [mark, Bool.false_eq_true, if_false, read]
  cases Entries.edit false (Entries.add [] name j) r.path false r.entries <;> rfl

theorem readLines?_item (bare : IsBareKey name) :
    readLines? (fuel + 1) r ('[' :: '[' :: (name.toList ++ ']' :: ']' :: '\n' :: rest)) =
      (Entries.openItem [] name r.entries).bind
        fun entries => readLines? fuel { entries, path := [name] } rest := by
  have closes (s : List Char) : skipGaps (']' :: s) = ']' :: s := rfl
  have read : r.readHeader? ('[' :: '[' :: (name.toList ++ ']' :: ']' :: '\n' :: rest)) =
      (Entries.openItem [] name r.entries).map
        fun entries => (⟨entries, [name]⟩, '\n' :: rest) := by
    rw [readHeader?, readKeys?_bare bare (by simp; decide) (by simp [closes]), closes]
    simp only [Option.bind_eq_bind, Option.bind_some, List.nil_append]
    cases Entries.openItem [] name r.entries <;> rfl
  have start (s : List Char) : skipGaps ('[' :: s) = '[' :: s := rfl
  have mark : ('[' == '#' || '[' == '\n' || '[' == '\r') = false := rfl
  rw [readLines?, start]
  simp only [mark, Bool.false_eq_true, if_false, BEq.rfl, if_true, read]
  cases Entries.openItem [] name r.entries <;> rfl

end Reading

namespace Entries

variable {entries : Entries} {items : List Entries} {sub : Entries} {key : String}

theorem openItem_first (missing : entries.lookup key = none) :
    openItem [] key entries = some (entries ++ [(key, .tables [[]])]) := by
  simp [openItem, edit, missing]

theorem openItem_next (found : entries.lookup key = some (.tables items)) :
    openItem [] key entries = some (set key (.tables (items ++ [[]])) entries) := by
  simp [openItem, edit, found]

theorem add_new (missing : entries.lookup key = none) (j : Json) :
    add [] key j false entries = some (entries ++ [(key, .value j)]) := by
  simp [add, edit, missing]

theorem edit_item {f : Bool → Entries → Option Entries}
    (found : entries.lookup key = some (.tables (items ++ [sub]))) :
    edit false f [key] false entries =
      (f false sub).map fun changed => set key (.tables (items ++ [changed])) entries := by
  simp only [edit, found, List.getLastD_concat, List.dropLast_concat, Option.bind_eq_bind]
  cases f false sub <;> rfl

end Entries

theorem parse?_plain {text : String} (plain : ∀ c ∈ text.toList.head?, c.toNat ≠ 0xFEFF) :
    parse? text = (Reading.readLines? (text.toList.length + 1) {} text.toList).map fun r =>
      .object (Node.entriesJson r.entries) := by
  cases chars : text.toList with
  | nil => rw [parse?, chars]
  | cons c rest =>
      have other : (c.toNat == 0xFEFF) = false := by
        simpa [chars] using plain
      simp only [parse?, chars, other, Bool.false_eq_true, if_false]

end Concordance.Toml
