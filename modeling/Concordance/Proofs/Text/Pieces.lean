import Mathlib
import Concordance.Text.Blank

/-! # Pieces of joined texts

Names that are joined with a mark split into the pieces of each name. So the last pieces of the
joined text are the last names just if the mark stands in none of these, or if the text has no more
pieces than that.
-/

namespace Concordance.Text

variable {mark : Char} {names : List (List Char)}

theorem splitOn_intercalate_flatMap (some : names ≠ []) :
    ([mark].intercalate names).splitOn mark = names.flatMap (List.splitOn mark) := by
  induction names with
  | nil => exact absurd rfl some
  | cons name names ih =>
      cases names with
      | nil => simp
      | cons next names =>
          rw [List.intercalate_cons_cons, List.append_assoc, List.singleton_append,
            List.splitOn_append_cons_self, ih (List.cons_ne_nil _ _)]
          rfl

theorem intercalate_flatMap_splitOn (mark : Char) (names : List (List Char)) :
    [mark].intercalate (names.flatMap (List.splitOn mark)) = [mark].intercalate names := by
  cases names with
  | nil => rfl
  | cons name names =>
      rw [← splitOn_intercalate_flatMap (List.cons_ne_nil name names), List.intercalate_splitOn]

theorem not_mem_of_mem_splitOn {s piece : List Char} (member : piece ∈ s.splitOn mark) :
    mark ∉ piece := by
  induction s generalizing piece with
  | nil => simp_all
  | cons c s ih =>
      rw [List.splitOn_cons_eq_if_modifyHead] at member
      split at member
      · rcases List.mem_cons.mp member with rfl | later
        · exact List.not_mem_nil
        · exact ih later
      · rename_i other
        cases pieces : s.splitOn mark with
        | nil => exact absurd pieces (List.splitOn_ne_nil _ _)
        | cons first rest =>
            rw [pieces, List.modifyHead_cons, List.mem_cons] at member
            rw [pieces, List.forall_mem_cons] at ih
            rcases member with rfl | later
            · exact List.not_mem_cons_of_ne_of_not_mem (fun same => other (by simp [same])) ih.1
            · exact ih.2 _ later

theorem length_splitOn (mark : Char) (s : List Char) :
    (s.splitOn mark).length = s.count mark + 1 := by
  induction s with
  | nil => rfl
  | cons c s ih =>
      rw [List.splitOn_cons_eq_if_modifyHead, List.count_cons]
      split <;> simp [ih]

theorem length_flatMap_splitOn (mark : Char) (names : List (List Char)) :
    (names.flatMap (List.splitOn mark)).length =
      names.length + (names.map (List.count mark)).sum := by
  induction names with
  | nil => rfl
  | cons name names ih =>
      rw [List.flatMap_cons, List.length_append, length_splitOn, ih, List.map_cons, List.sum_cons,
        List.length_cons]
      omega

theorem intercalate_inj {one other : List (List Char)} (some : one ≠ []) (some' : other ≠ [])
    (plain : ∀ piece ∈ one, mark ∉ piece) (plain' : ∀ piece ∈ other, mark ∉ piece) :
    [mark].intercalate one = [mark].intercalate other ↔ one = other := by
  refine ⟨fun same => ?_, congrArg _⟩
  rw [← List.splitOn_intercalate mark plain some, same, List.splitOn_intercalate mark plain' some']

theorem not_mem_of_mem_flatMap_splitOn {piece : List Char}
    (member : piece ∈ names.flatMap (List.splitOn mark)) : mark ∉ piece := by
  obtain ⟨name, _, inside⟩ := List.mem_flatMap.mp member
  exact not_mem_of_mem_splitOn inside

theorem rtake_append_eq_right_iff {α : Type} {front rest : List α} {k : Nat} :
    (front ++ rest).rtake k = rest ↔ min k (front.length + rest.length) = rest.length := by
  constructor
  · intro same
    have length := congrArg List.length same
    rw [List.rtake, List.length_drop, List.length_append] at length
    omega
  · intro same
    have dropped : (front ++ rest).length - k = front.length := by
      rw [List.length_append]
      omega
    rw [List.rtake, dropped, List.drop_left]

/-- The last pieces of texts are the pieces of the last texts if these are pieces themselves, or if
there are no more pieces than are taken. -/
theorem rtake_flatMap_splitOn_iff (mark : Char) (names : List (List Char)) (k : Nat) :
    (names.flatMap (List.splitOn mark)).rtake k = (names.rtake k).flatMap (List.splitOn mark) ↔
      (∀ name ∈ names.rtake k, mark ∉ name) ∨
        (names.flatMap (List.splitOn mark)).length ≤ k := by
  have parts : names.flatMap (List.splitOn mark) =
      (names.take (names.length - k)).flatMap (List.splitOn mark) ++
        (names.rtake k).flatMap (List.splitOn mark) := by
    rw [← List.flatMap_append, List.rtake, List.take_append_drop]
  have plain : (∀ name ∈ names.rtake k, mark ∉ name) ↔
      ((names.rtake k).map (List.count mark)).sum = 0 := by
    simp [List.sum_eq_zero_iff, List.count_eq_zero]
  have short (all : names.length ≤ k) :
      ((names.take (names.length - k)).map (List.count mark)).sum = 0 := by
    simp [Nat.sub_eq_zero_of_le all]
  have none (zero : k = 0) : ((names.rtake k).map (List.count mark)).sum = 0 := by
    simp [zero]
  have length : (names.rtake k).length = min k names.length := by
    rw [List.rtake, List.length_drop]
    omega
  rw [parts, rtake_append_eq_right_iff, plain, List.length_append, length_flatMap_splitOn,
    length_flatMap_splitOn, length, List.length_take]
  omega

theorem intercalate_rtake_splitOn (mark : Char) (names : List (List Char)) (k : Nat) :
    [mark].intercalate ((([mark].intercalate names).splitOn mark).rtake k) =
        [mark].intercalate (names.rtake k) ↔
      (∀ name ∈ names.rtake k, mark ∉ name) ∨
        (([mark].intercalate names).splitOn mark).length ≤ k := by
  by_cases trivial : k = 0 ∨ names = []
  · rcases trivial with rfl | rfl
    · simp
    · cases k <;> simp [List.rtake]
  obtain ⟨positive, some⟩ := not_or.mp trivial
  have last {l : List (List Char)} (some : l ≠ []) : l.rtake k ≠ [] := by
    have long := List.length_pos_iff.mpr some
    refine List.ne_nil_of_length_pos ?_
    rw [List.rtake, List.length_drop]
    omega
  have pieces {l : List (List Char)} (some : l ≠ []) : l.flatMap (List.splitOn mark) ≠ [] := by
    simpa [List.splitOn_ne_nil] using List.exists_mem_of_ne_nil l some
  rw [splitOn_intercalate_flatMap some, ← intercalate_flatMap_splitOn mark (names.rtake k),
    intercalate_inj (last (pieces some)) (pieces (last some))
      (fun _ member => not_mem_of_mem_flatMap_splitOn (List.mem_of_mem_drop member))
      (fun _ => not_mem_of_mem_flatMap_splitOn),
    rtake_flatMap_splitOn_iff]

end Concordance.Text
