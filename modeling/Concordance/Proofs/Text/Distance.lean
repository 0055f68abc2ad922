import Mathlib
import Concordance.Proofs.Text.Repeats

/-! # Edits and near matches

What is computed row by row is the fewest edits that turn one text into the other, each
of which inserts, deletes or substitutes one character. The first near match is the
nearest of all candidates, and the smallest of those.
-/

namespace Concordance.Text

variable {a b c s t : List Char} {m n : Nat}

/-- One text becomes another by one edit of one character. -/
inductive Edit : List Char → List Char → Prop where
  | insert (x : Char) (s : List Char) : Edit s (x :: s)
  | delete (x : Char) (s : List Char) : Edit (x :: s) s
  | substitute (x y : Char) (s : List Char) : Edit (x :: s) (y :: s)
  /-- The first character stays. -/
  | behind (x : Char) {s t : List Char} (later : Edit s t) : Edit (x :: s) (x :: t)

/-- One text becomes another by so many edits, one after the other. -/
inductive Edited : Nat → List Char → List Char → Prop where
  | none (s : List Char) : Edited 0 s s
  | edit {n : Nat} {s t u : List Char} (before : Edited n s t) (last : Edit t u) :
      Edited (n + 1) s u

section Edits

theorem Edited.trans (one : Edited m a b) (other : Edited n b c) : Edited (m + n) a c := by
  induction other with
  | none => exact one
  | edit _ last ih =>
      rw [← Nat.add_assoc]
      exact .edit (ih one) last

theorem Edit.edited (edit : Edit a b) : Edited 1 a b :=
  .edit (.none a) edit

theorem Edited.behind (x : Char) (edited : Edited n a b) : Edited n (x :: a) (x :: b) := by
  induction edited with
  | none => exact .none _
  | edit _ last ih => exact .edit ih (.behind x last)

theorem Edit.append_left (front : List Char) (edit : Edit a b) : Edit (front ++ a) (front ++ b) := by
  induction front with
  | nil => exact edit
  | cons x front ih => exact .behind x ih

theorem Edit.append_right (edit : Edit a b) (rest : List Char) : Edit (a ++ rest) (b ++ rest) := by
  induction edit with
  | insert x s => exact .insert x _
  | delete x s => exact .delete x _
  | substitute x y s => exact .substitute x y _
  | behind x _ ih => exact .behind x ih

theorem Edit.reverse (edit : Edit a b) : Edit a.reverse b.reverse := by
  induction edit with
  | insert x s => simpa using Edit.append_left s.reverse (.insert x [])
  | delete x s => simpa using Edit.append_left s.reverse (.delete x [])
  | substitute x y s => simpa using Edit.append_left s.reverse (.substitute x y [])
  | behind x _ ih => simpa using ih.append_right [x]

theorem Edited.reverse (edited : Edited n a b) : Edited n a.reverse b.reverse := by
  induction edited with
  | none => exact .none _
  | edit _ last ih => exact .edit ih last.reverse

end Edits

section Fewest

/-- The fewest edits, by what becomes of the first characters. -/
def fewest : List Char → List Char → Nat
  | [], t => t.length
  | s, [] => s.length
  | x :: s, y :: t =>
      min (min (fewest (x :: s) t + 1) (fewest s (y :: t) + 1)) (fewest s t + if x == y then 0 else 1)
  termination_by s t => s.length + t.length

@[simp] theorem fewest_nil_left (t : List Char) : fewest [] t = t.length := by
  rw [fewest]

@[simp] theorem fewest_nil_right (s : List Char) : fewest s [] = s.length := by
  cases s <;> rw [fewest]
  rintro ⟨⟩

theorem fewest_cons_cons (x y : Char) (s t : List Char) :
    fewest (x :: s) (y :: t) =
      min (min (fewest (x :: s) t + 1) (fewest s (y :: t) + 1))
        (fewest s t + if x == y then 0 else 1) := by
  rw [fewest]

theorem edited_insertions (t : List Char) : Edited t.length [] t := by
  induction t with
  | nil => exact .none []
  | cons y t ih => exact .edit ih (.insert y t)

theorem edited_deletions (s : List Char) : Edited s.length s [] := by
  induction s with
  | nil => exact .none []
  | cons x s ih =>
      rw [List.length_cons, Nat.add_comm]
      exact (Edit.delete x s).edited.trans ih

theorem edited_fewest (s t : List Char) : Edited (fewest s t) s t := by
  fun_induction fewest s t with
  | case1 t => exact edited_insertions t
  | case2 s => exact edited_deletions s
  | case3 x s y t insert delete keep =>
      have substitute : Edited (fewest s t + if x == y then 0 else 1) (x :: s) (y :: t) := by
        split
        · rename_i same
          rw [eq_of_beq same]
          exact keep.behind y
        · exact .edit (keep.behind x) (.substitute x y t)
      rcases min_choice (min (fewest (x :: s) t + 1) (fewest s (y :: t) + 1))
        (fewest s t + if x == y then 0 else 1) with least | least
      · rw [least]
        rcases min_choice (fewest (x :: s) t + 1) (fewest s (y :: t) + 1) with least | least
        · rw [least]
          exact .edit insert (.insert y t)
        · rw [least, Nat.add_comm]
          exact (Edit.delete x s).edited.trans delete
      · rw [least]
        exact substitute

theorem fewest_cons_le (x : Char) (s t : List Char) : fewest (x :: s) t ≤ fewest s t + 1 := by
  cases t with
  | nil => simp
  | cons y t =>
      rw [fewest_cons_cons]
      omega

theorem fewest_edit_le (edit : Edit t c) (s : List Char) : fewest s c ≤ fewest s t + 1 := by
  -- By the place of the edit, and there by the first text, whose own edits may come before it.
  induction edit generalizing s with
  | insert y t =>
      cases s with
      | nil => simp
      | cons x s =>
          rw [fewest_cons_cons]
          omega
  | delete y t =>
      induction s with
      | nil => simp; omega
      | cons x s ih =>
          have drop := fewest_cons_le x s t
          rw [fewest_cons_cons x y]
          omega
  | substitute y z t =>
      induction s with
      | nil => simp
      | cons x s ih =>
          rw [fewest_cons_cons, fewest_cons_cons]
          split <;> split <;> omega
  | behind y _ later =>
      induction s with
      | nil => simpa using later []
      | cons x s ih =>
          have whole := later (x :: s)
          have rest := later s
          rw [fewest_cons_cons, fewest_cons_cons]
          omega

theorem fewest_self (s : List Char) : fewest s s = 0 := by
  induction s with
  | nil => simp
  | cons x s ih => simp [fewest_cons_cons, ih]

theorem fewest_le (edited : Edited n s t) : fewest s t ≤ n := by
  induction edited with
  | none s => rw [fewest_self]
  | edit _ last ih => exact (fewest_edit_le last _).trans (Nat.succ_le_succ ih)

end Fewest

section Rows

/-- The fewest edits to the texts that grow out of another at its front. -/
def growing (s t : List Char) : List Char → List Nat
  | [] => []
  | y :: ys => fewest s (y :: t) :: growing s (y :: t) ys

theorem growing_nil (t ys : List Char) :
    growing [] t ys = List.range' (t.length + 1) ys.length := by
  induction ys generalizing t with
  | nil => rfl
  | cons y ys ih => simp [growing, ih, List.range'_succ]

theorem distanceCells_growing (x : Char) (s t ys : List Char) :
    distanceCells x (fewest s t) (fewest (x :: s) t) ys (growing s t ys) =
      growing (x :: s) t ys := by
  induction ys generalizing t with
  | nil => rfl
  | cons y ys ih =>
      rw [growing, growing, distanceCells, ← fewest_cons_cons]
      exact congrArg _ (ih (y :: t))

/-- The row of a text, whose characters were read from the last one to the first. -/
theorem distanceRow_growing (x : Char) (s b : List Char) :
    distanceRow b (fewest s [] :: growing s [] b) x =
      fewest (x :: s) [] :: growing (x :: s) [] b := by
  have first : fewest s [] + 1 = fewest (x :: s) [] := by simp
  rw [distanceRow, first, distanceCells_growing]

theorem foldl_distanceRow (a s b : List Char) :
    a.foldl (distanceRow b) (fewest s [] :: growing s [] b) =
      fewest (a.reverse ++ s) [] :: growing (a.reverse ++ s) [] b := by
  induction a generalizing s with
  | nil => rfl
  | cons x a ih =>
      rw [List.foldl_cons, distanceRow_growing, ih, List.reverse_cons, List.append_assoc,
        List.singleton_append]

theorem getLastD_growing (s t ys : List Char) :
    (fewest s t :: growing s t ys).getLastD 0 = fewest s (ys.reverse ++ t) := by
  induction ys generalizing t with
  | nil => rfl
  | cons y ys ih =>
      rw [growing, List.getLastD_cons, List.reverse_cons, List.append_assoc, List.singleton_append,
        ← ih (y :: t), List.getLastD_cons, List.getLastD_cons]

theorem distance_eq_fewest (a b : List Char) : distance a b = fewest a.reverse b.reverse := by
  have start : List.range (b.length + 1) = fewest [] [] :: growing [] [] b := by
    rw [growing_nil, List.range_eq_range', List.range'_succ]
    simp
  rw [distance, start, foldl_distanceRow, getLastD_growing, List.append_nil, List.append_nil]

/-- The distance of two texts is the number of edits that it takes at least. -/
theorem distance_isLeast (a b : List Char) : IsLeast {n | Edited n a b} (distance a b) := by
  rw [distance_eq_fewest]
  constructor
  · simpa using (edited_fewest a.reverse b.reverse).reverse
  · intro n edited
    exact fewest_le (Edited.reverse edited)

end Rows

section Nearest

variable {name : String} {candidates : List String}

/-- A text of a collection that no other is nearer to a name than, and none as near comes before in
order, if any is near enough. -/
def Nearest (name : String) (texts : Set String) : Option String → Prop
  | none => ∀ text ∈ texts, ∀ n, Edited n name.toList text.toList → nearness name < n
  | some best => best ∈ texts ∧ ∃ n ≤ nearness name, Edited n name.toList best.toList ∧
      ∀ text ∈ texts, ∀ m, Edited m name.toList text.toList → n < m ∨ n = m ∧ best ≤ text

theorem nearerOrEqual_iff {p q : Nat × String} :
    nearerOrEqual p q = true ↔ p.1 < q.1 ∨ p.1 = q.1 ∧ p.2 ≤ q.2 := by
  rw [nearerOrEqual, compareLex, Ordering.isLE_then_iff_or, compareOn, compareOn, Nat.compare_eq_lt,
    Nat.compare_eq_eq, Ordering.isLE_iff_ne_gt, ← Ne.eq_def, compare_le_iff_le]

theorem nearerOrEqual_trans (p q r : Nat × String) (first : nearerOrEqual p q = true)
    (second : nearerOrEqual q r = true) : nearerOrEqual p r = true :=
  Std.TransCmp.isLE_trans first second

theorem nearerOrEqual_total (p q : Nat × String) :
    (nearerOrEqual p q || nearerOrEqual q p) = true :=
  isLE_total p q

/-- The candidates that are near enough, with their distances. -/
def scored (name : String) (candidates : List String) : List (Nat × String) :=
  (candidates.map fun candidate => (distance name.toList candidate.toList, candidate)).filter
    fun (d, _) => d ≤ nearness name

theorem mem_scored {d : Nat} {text : String} : (d, text) ∈ scored name candidates ↔
    text ∈ candidates ∧ distance name.toList text.toList = d ∧ d ≤ nearness name := by
  simp only [scored, List.mem_filter, List.mem_map, Prod.mk.injEq, decide_eq_true_eq]
  constructor
  · rintro ⟨⟨_, member, same, rfl⟩, near⟩
    exact ⟨member, same, near⟩
  · rintro ⟨member, same, near⟩
    exact ⟨⟨text, member, same, rfl⟩, near⟩

theorem nearest_head?_eq (name : String) (candidates : List String) :
    (nearest name candidates).head? =
      ((scored name candidates).mergeSort nearerOrEqual).head?.map Prod.snd := by
  rw [← head?_dropRepeats ((scored name candidates).mergeSort nearerOrEqual), nearest, List.head?_map,
    List.head?_take, if_neg (by decide)]
  rfl

/-- The first near match is the nearest candidate, and the smallest of those. -/
theorem nearest_head? (name : String) (candidates : List String) :
    Nearest name {text | text ∈ candidates} (nearest name candidates).head? := by
  rw [nearest_head?_eq]
  cases first : ((scored name candidates).mergeSort nearerOrEqual).head? with
  | none =>
      intro text inside n edited
      rw [List.head?_eq_none_iff, ← List.length_eq_zero_iff, List.length_mergeSort,
        List.length_eq_zero_iff] at first
      have least := (distance_isLeast name.toList text.toList).2 edited
      by_contra near
      have member : (distance name.toList text.toList, text) ∈ scored name candidates :=
        mem_scored.mpr ⟨inside, rfl, by omega⟩
      rw [first] at member
      cases member
  | some best =>
      obtain ⟨d, best⟩ := best
      obtain ⟨inside, rfl, near⟩ := mem_scored.mp (List.mem_mergeSort.mp (List.mem_of_head? first))
      refine ⟨inside, _, near, (distance_isLeast _ _).1, fun text there m edited => ?_⟩
      have least := (distance_isLeast name.toList text.toList).2 edited
      by_cases close : distance name.toList text.toList ≤ nearness name
      · have order := nearerOrEqual_iff.mp (le_of_head?_mergeSort nearerOrEqual_trans
          nearerOrEqual_total first _ (mem_scored.mpr ⟨there, rfl, close⟩))
        rcases order with nearer | ⟨same, before⟩
        · exact .inl (nearer.trans_le least)
        · exact (same.le.trans least).lt_or_eq.imp_right fun even => ⟨even, before⟩
      · exact .inl (by omega)

end Nearest

end Concordance.Text
