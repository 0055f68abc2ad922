import Mathlib

/-! # Lists: sorting and folds

A list whose elements differ in order is sorted in one way, however it is given, and what is sorted
to the front comes before everything else. What holds at the end of a fold is traced to its start or
to one of its rounds; that every round keeps it is `List.foldlRecOn`.
-/

namespace Concordance

variable {α : Type}

theorem isLE_total {cmp : α → α → Ordering} [Std.OrientedCmp cmp] (a b : α) :
    ((cmp a b).isLE || (cmp b a).isLE) = true := by
  have swap : cmp a b = (cmp b a).swap := Std.OrientedCmp.eq_swap
  rw [swap]
  cases cmp b a <;> rfl

section MergeSort

variable {le : α → α → Bool}
  (trans : ∀ a b c, le a b = true → le b c = true → le a c = true)
  (total : ∀ a b, (le a b || le b a) = true)

include trans total

theorem mergeSort_eq_of_perm {l m : List α} (perm : l.Perm m)
    (anti : ∀ a ∈ l, ∀ b ∈ l, le a b = true → le b a = true → a = b) :
    l.mergeSort le = m.mergeSort le := by
  have sorted : (l.mergeSort le).Perm (m.mergeSort le) :=
    (List.mergeSort_perm _ _).trans (perm.trans (List.mergeSort_perm _ _).symm)
  refine sorted.eq_of_pairwise (fun a b here there => ?_)
    (List.pairwise_mergeSort trans total l) (List.pairwise_mergeSort trans total m)
  exact anti a (List.mem_mergeSort.mp here) b (List.mem_mergeSort.mp (sorted.mem_iff.mpr there))

theorem le_of_head?_mergeSort {l : List α} {a : α} (first : (l.mergeSort le).head? = some a) :
    ∀ b ∈ l, le a b = true := by
  intro b member
  have sorted := List.pairwise_mergeSort trans total l
  have inside : b ∈ l.mergeSort le := List.mem_mergeSort.mpr member
  cases parts : l.mergeSort le with
  | nil =>
      rw [parts] at inside
      cases inside
  | cons c rest =>
      rw [parts] at first sorted inside
      obtain rfl : c = a := Option.some.inj first
      rcases List.mem_cons.mp inside with rfl | later
      · simpa using total b b
      · exact (List.pairwise_cons.mp sorted).1 b later

end MergeSort

section Folds

variable {σ : Type} {P : σ → Prop} {Q : α → Prop} {s : σ} {l : List α}

/-- What holds after a fold held before it or came with one of its rounds. -/
theorem exists_of_foldl {f : σ → α → σ} (each : ∀ s x, P (f s x) → P s ∨ Q x)
    (after : P (l.foldl f s)) : P s ∨ ∃ x ∈ l, Q x := by
  induction l generalizing s with
  | nil => exact .inl after
  | cons x l ih =>
      rcases ih after with before | ⟨later, listed, own⟩
      · exact (each s x before).imp_right fun own => ⟨x, List.mem_cons_self, own⟩
      · exact .inr ⟨later, List.mem_cons_of_mem _ listed, own⟩

/-- The same of a fold whose rounds are told whether they are the first. -/
theorem exists_of_foldl_first {f : σ → Bool → α → σ}
    (each : ∀ s first x, P (f s first x) → P s ∨ Q x) {x : α}
    (after : P (l.foldl (f · false ·) (f s true x))) : P s ∨ ∃ y ∈ x :: l, Q y := by
  rcases exists_of_foldl (each · false ·) after with before | ⟨later, listed, own⟩
  · exact (each s true x before).imp_right fun own => ⟨x, List.mem_cons_self, own⟩
  · exact .inr ⟨later, List.mem_cons_of_mem _ listed, own⟩

end Folds

end Concordance
