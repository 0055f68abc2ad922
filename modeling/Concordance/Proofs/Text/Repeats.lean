import Mathlib
import Concordance.Proofs.Lists
import Concordance.Text.Distance

/-! # Lists without repeats

Dropping repeats keeps every element and the first place. Of sorted elements one of each is
kept, in strict order.
-/

namespace Concordance.Text

section Elements

variable {α : Type} [BEq α] [LawfulBEq α]

theorem mem_dropRepeats {l : List α} {x : α} : x ∈ dropRepeats l ↔ x ∈ l := by
  induction l with
  | nil => rfl
  | cons a l ih =>
      cases l with
      | nil => rfl
      | cons b l =>
          rw [dropRepeats]
          split
          · rename_i same
            obtain rfl := eq_of_beq same
            rw [ih]
            simp
          · simp only [List.mem_cons] at ih ⊢
            rw [ih]

theorem head?_dropRepeats (l : List α) : (dropRepeats l).head? = l.head? := by
  fun_induction dropRepeats l with
  | case1 => rfl
  | case2 => rfl
  | case3 a b rest same ih => rw [ih, eq_of_beq same]; rfl
  | case4 a b rest => rfl

theorem dropRepeats_eq_singleton {l : List α} {x : α} (some : l ≠ []) (all : ∀ y ∈ l, y = x) :
    dropRepeats l = [x] := by
  induction l with
  | nil => exact absurd rfl some
  | cons a l ih =>
      obtain rfl := all a List.mem_cons_self
      cases l with
      | nil => rfl
      | cons b l =>
          obtain rfl := all b (List.mem_cons_of_mem _ List.mem_cons_self)
          rw [dropRepeats, if_pos (beq_self_eq_true _)]
          exact ih (List.cons_ne_nil _ _) fun y member => all y (List.mem_cons_of_mem _ member)

omit [LawfulBEq α] in
theorem dropRepeats_sublist (l : List α) : (dropRepeats l).Sublist l := by
  induction l using dropRepeats.induct with
  | case1 | case2 => rw [dropRepeats]
  | case3 a b rest same ih =>
      rw [dropRepeats, if_pos same]
      exact ih.trans (List.sublist_cons_self a _)
  | case4 a b rest different ih =>
      rw [dropRepeats, if_neg different]
      exact ih.cons_cons a

section Order

variable {cmp : α → α → Ordering} [Std.TransCmp cmp] [Std.LawfulEqCmp cmp]

theorem rising_dropRepeats {l : List α} (sorted : l.Pairwise fun a b => (cmp a b).isLE = true) :
    (dropRepeats l).Pairwise fun a b => cmp a b = .lt := by
  induction l using dropRepeats.induct with
  | case1 => exact .nil
  | case2 a => exact List.pairwise_singleton _ a
  | case3 a b rest same ih =>
      rw [dropRepeats, if_pos same]
      exact ih (List.pairwise_cons.mp sorted).2
  | case4 a b rest different ih =>
      rw [dropRepeats, if_neg different]
      obtain ⟨above, tail⟩ := List.pairwise_cons.mp sorted
      have apart : cmp a b ≠ .eq := fun same =>
        different (by simpa using Std.LawfulEqCmp.eq_of_compare same)
      have first : cmp a b = .lt :=
        (Ordering.isLE_iff_eq_lt_or_eq_eq.mp (above b List.mem_cons_self)).resolve_right apart
      refine List.pairwise_cons.mpr ⟨fun c member => ?_, ih tail⟩
      rcases List.mem_cons.mp ((dropRepeats_sublist _).subset member) with rfl | later
      · exact first
      · exact Std.TransCmp.lt_of_lt_of_isLE first ((List.pairwise_cons.mp tail).1 c later)

variable (cmp) in
theorem rising_mergeSort (l : List α) :
    (dropRepeats (l.mergeSort fun a b => (cmp a b).isLE)).Pairwise fun a b => cmp a b = .lt :=
  rising_dropRepeats
    (List.pairwise_mergeSort (fun _ _ _ => Std.TransCmp.isLE_trans) isLE_total l)

end Order

end Elements

end Concordance.Text
