import Mathlib
import Concordance.Proofs.Lists
import Concordance.Text.FilePath

/-! # Parts of paths

Paths are ordered by their parts, and a path below a directory has the parts of the
directory and then its own.
-/

namespace Concordance

open Std

namespace PathPart

instance : TransOrd PathPart :=
  inferInstanceAs (TransCmp (compareLex (compareOn rank) (compareOn text)))

instance : LawfulEqOrd PathPart where
  eq_of_compare {a b} same := by
    obtain ⟨ranks, texts⟩ := compareLex_eq_eq.mp same
    have ranks : a.rank = b.rank := LawfulEqOrd.eq_of_compare ranks
    have texts : a.text = b.text := LawfulEqOrd.eq_of_compare texts
    cases a <;> cases b <;> simp_all [rank, text]

end PathPart

namespace FilePath

section Order

variable {a b c : String}

theorem le_trans (first : le a b = true) (second : le b c = true) : le a c = true :=
  TransCmp.isLE_trans first second

theorem le_total (a b : String) : (le a b || le b a) = true :=
  isLE_total (parts a) (parts b)

theorem parts_eq_of_le (first : le a b = true) (second : le b a = true) : parts a = parts b :=
  LawfulEqOrd.eq_of_compare (OrientedCmp.isLE_antisymm first second)

end Order

section Join

variable {dir name : String}

theorem stripStart?_slash (s : List Char) :
    (Text.stripStart? ['/'] s).isSome = (s.head? == some '/') := by
  cases s with
  | nil => rfl
  | cons c s =>
      by_cases same : c = '/'
      · simp [Text.stripStart?, same]
      · simp [Text.stripStart?, same, Ne.symm same]

theorem startsWith_slash (s : String) : Text.startsWith "/" s = (s.toList.head? == some '/') :=
  stripStart?_slash s.toList

theorem endsWith_slash (s : String) :
    Text.endsWith "/" s = (s.toList.getLast? == some '/') := by
  rw [Text.endsWith, Text.stripEnd?, Option.isSome_map, ← List.head?_reverse]
  exact stripStart?_slash s.toList.reverse

theorem pieces_append (front back : List Char) :
    Text.pieces '/' (String.ofList (front ++ '/' :: back)) =
      Text.pieces '/' (String.ofList front) ++ Text.pieces '/' (String.ofList back) := by
  simp only [Text.pieces, String.toList_ofList, List.splitOn_append_cons_self, List.map_append]

theorem pieces_ne_nil (s : String) : Text.pieces '/' s ≠ [] := by
  simp [Text.pieces]

theorem pieces_of_plain (plain : '/' ∉ name.toList) : Text.pieces '/' name = [name] := by
  rw [Text.pieces, List.splitOn_eq_singleton plain]
  simp

theorem filterMap_part?_singleton (piece : String) :
    [piece].filterMap part? = (part? piece).toList := by
  cases found : part? piece <;> simp only [List.filterMap_cons, found] <;> rfl

theorem parts_append (front : List Char) (plain : '/' ∉ name.toList) :
    parts (String.ofList (front ++ '/' :: name.toList)) =
      parts (String.ofList (front ++ ['/'])) ++ (part? name).toList := by
  have head : (Text.pieces '/' (String.ofList front) ++ [name]).head? =
      (Text.pieces '/' (String.ofList front) ++ [""]).head? := by
    rw [List.head?_append_of_ne_nil _ (pieces_ne_nil _),
      List.head?_append_of_ne_nil _ (pieces_ne_nil _)]
  have start : ((front ++ '/' :: name.toList).head? == some '/') =
      ((front ++ ['/']).head? == some '/') := by
    cases front <;> rfl
  have empty : Text.pieces '/' (String.ofList []) = [""] := by decide
  simp only [parts, startsWith_slash, String.toList_ofList, start, pieces_append,
    String.ofList_toList, pieces_of_plain plain, empty, head, List.filterMap_append,
    filterMap_part?_singleton]
  simp [part?]

theorem parts_slash {front : List Char} (long : front ≠ []) :
    parts (String.ofList (front ++ ['/'])) = parts (String.ofList front) := by
  have start : ((front ++ ['/']).head? == some '/') = (front.head? == some '/') := by
    rw [List.head?_append_of_ne_nil _ long]
  have empty : Text.pieces '/' (String.ofList []) = [""] := by decide
  simp only [parts, startsWith_slash, String.toList_ofList, start, pieces_append, empty,
    List.head?_append_of_ne_nil _ (pieces_ne_nil _), List.filterMap_append,
    filterMap_part?_singleton]
  simp [part?]

/-- A path of one name below a directory has the parts of the directory, and then its own. A dot
alone is a part only of a path that starts with it. -/
theorem parts_join (plain : '/' ∉ name.toList) (told : dir ≠ "" ∨ name ≠ ".") :
    parts (join dir name) = parts dir ++ (part? name).toList := by
  have relative : Text.startsWith "/" name = false := by
    rw [startsWith_slash]
    cases chars : name.toList with
    | nil => rfl
    | cons c s =>
        rw [chars] at plain
        simpa using fun same : c = '/' => plain (same ▸ List.mem_cons_self)
  simp only [join, relative, Bool.false_eq_true, if_false]
  by_cases blank : dir = ""
  · have empty : parts "" = [] := by decide
    have name' : name ≠ "." := told.resolve_left (absurd blank)
    simp only [blank, BEq.rfl, Bool.true_or, if_true, String.empty_append, empty, List.nil_append]
    simp [parts, relative, pieces_of_plain plain, name', filterMap_part?_singleton]
  · simp only [beq_eq_false_iff_ne.mpr blank, Bool.false_or, endsWith_slash, beq_iff_eq]
    split
    · rename_i slash
      obtain ⟨front, same⟩ := List.getLast?_eq_some_iff.mp slash
      have here : dir = String.ofList (front ++ ['/']) := by rw [← same, String.ofList_toList]
      have whole : dir ++ name = String.ofList (front ++ '/' :: name.toList) := by
        rw [here]
        apply String.toList_injective
        simp
      rw [whole, parts_append front plain, ← here]
    · have whole : dir ++ "/" ++ name = String.ofList (dir.toList ++ '/' :: name.toList) := by
        apply String.toList_injective
        simp
      have long : dir.toList ≠ [] := by simpa using blank
      rw [whole, parts_append _ plain, parts_slash long, String.ofList_toList]

end Join

end FilePath

end Concordance
