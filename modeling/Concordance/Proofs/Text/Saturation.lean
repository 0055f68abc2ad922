import Mathlib
import Concordance.Proofs.Text.Distance

/-! # Distances in machine words

The rows of distances, computed cell by cell with sums that have a largest one and with look-ups
of cells that can be missing. Texts that are shorter than the largest word never get that far, as
no distance is more than the length of the longer text, and no cell that is asked for is missing.
So it makes no difference whether sums stop at the largest word or the computation does.
-/

namespace Concordance.Text

variable {a b s t : List Char} {top : Nat}

section Loops

variable {m : Type → Type} [Monad m] (add : Nat → Nat → m Nat) (cell : Option Nat → m Nat)

/-- The next cell of a row, which has `current` so far, below the row `previous`. The next character
of the second text is `d` and stands at the place `j`. -/
def cellBy (c : Char) (previous current : List Nat) (d : Char) (j : Nat) : m Nat := do
  let diagonal ← cell previous[j]?
  let substitution ← add diagonal (if c == d then 0 else 1)
  let next ← add j 1
  let above ← cell previous[next]?
  let deletion ← add above 1
  let before ← cell current.getLast?
  let insertion ← add before 1
  return min (min substitution deletion) insertion

/-- The row for the character `c` of the first text, which stands at the place `i`. -/
def rowBy (b : List Char) (previous : List Nat) (c : Char) (i : Nat) : m (List Nat) := do
  let first ← add i 1
  b.zipIdx.foldlM (fun current (d, j) => do
    let next ← cellBy add cell c previous current d j
    return current ++ [next]) [first]

/-- The distance of two texts, given what sums and look-ups of cells come to. -/
def distanceBy (a b : List Char) : m Nat := do
  let last ← a.zipIdx.foldlM (fun previous (c, i) => rowBy add cell b previous c i)
    (List.range (b.length + 1))
  return last.getLast?.getD 0

end Loops

/-- The distance of two texts, where sums stop at the largest word and a missing cell counts as some
other value. -/
def wordDistance (top missing : Nat) (a b : List Char) : Nat :=
  (distanceBy (fun x y => (pure (min (x + y) top) : Id Nat)) (fun found => pure (found.getD missing))
    a b).run

/-- The distance of two texts, of which nothing becomes if a sum exceeds the largest word or a cell
is missing. -/
def checkedDistance (top : Nat) (a b : List Char) : Option Nat :=
  distanceBy (fun x y => if x + y ≤ top then some (x + y) else none) id a b

theorem fewest_le_max (s t : List Char) : fewest s t ≤ max s.length t.length := by
  fun_induction fewest s t with
  | case1 t => simp
  | case2 s => simp
  | case3 x s y t insert delete keep =>
      have least := min_le_right (min (fewest (x :: s) t + 1) (fewest s (y :: t) + 1))
        (fewest s t + if x == y then 0 else 1)
      have cost : (if x == y then 0 else 1) ≤ 1 := by split <;> omega
      simp only [List.length_cons]
      omega

section Rows

/-- The row of a text, whose characters were read from the last one to the first: the fewest edits
to what the other text begins with. -/
def row (s b : List Char) : List Nat := b.inits.map fun front => fewest s front.reverse

theorem row_concat (s b : List Char) (y : Char) :
    row s (b ++ [y]) = row s b ++ [fewest s (y :: b.reverse)] := by
  simp [row]

theorem row_cell (s done rest : List Char) :
    (row s (done ++ rest))[done.length]? = some (fewest s done.reverse) := by
  have inside : done.length < (done ++ rest).inits.length := by
    rw [List.length_inits, List.length_append]
    omega
  rw [row, List.getElem?_map, List.getElem?_eq_getElem inside, List.getElem_inits, List.take_left]
  rfl

theorem row_last (s b : List Char) : (row s b).getLast? = some (fewest s b.reverse) := by
  induction b using List.reverseRecOn with
  | nil => rfl
  | append_singleton b y => simp [row_concat]

section Words

variable {m : Type → Type} [Monad m] [LawfulMonad m] {add : Nat → Nat → m Nat}
  {cell : Option Nat → m Nat} (sums : ∀ x y, x + y ≤ top → add x y = pure (x + y))
  (cells : ∀ x, cell (some x) = pure x)

include sums cells

theorem cellBy_row (c d : Char) (s done rest : List Char) (short : s.length + 1 < top)
    (short' : (done ++ d :: rest).length < top) :
    cellBy add cell c (row s (done ++ d :: rest)) (row (c :: s) done) d done.length =
      pure (fewest (c :: s) (d :: done.reverse)) := by
  have here : (row s (done ++ d :: rest))[done.length]? = some (fewest s done.reverse) :=
    row_cell s done (d :: rest)
  have next : (row s (done ++ d :: rest))[done.length + 1]? = some (fewest s (d :: done.reverse)) := by
    simpa using row_cell s (done ++ [d]) rest
  have least := fewest_le_max s done.reverse
  have least' := fewest_le_max s (d :: done.reverse)
  have least'' := fewest_le_max (c :: s) done.reverse
  have cost : (if c == d then 0 else 1) ≤ 1 := by split <;> omega
  simp only [List.length_append, List.length_cons, List.length_reverse] at short' least least' least''
  rw [cellBy, here, cells, pure_bind, sums _ _ (by omega), pure_bind, sums _ _ (by omega), pure_bind,
    next, cells, pure_bind, sums _ _ (by omega), pure_bind, row_last, cells, pure_bind,
    sums _ _ (by omega), pure_bind, fewest_cons_cons]
  congr 1
  omega

theorem rowBy_row (c : Char) (s b : List Char) (short : s.length + 1 < top)
    (short' : b.length < top) : rowBy add cell b (row s b) c s.length = pure (row (c :: s) b) := by
  -- After `done` was read, the row so far is the row of what was read.
  have loop (done rest : List Char) (whole : b = done ++ rest) :
      (rest.zipIdx done.length).foldlM (fun current (d, j) => do
          let next ← cellBy add cell c (row s b) current d j
          return current ++ [next]) (row (c :: s) done) = pure (row (c :: s) b) := by
    induction rest generalizing done with
    | nil => rw [whole, List.append_nil]; rfl
    | cons d rest ih =>
        have made := cellBy_row sums cells c d s done rest short (whole ▸ short')
        have more := ih (done ++ [d]) (by rw [whole]; simp)
        rw [List.length_append, List.length_singleton, row_concat] at more
        rw [← whole] at made
        simp only [List.zipIdx_cons, List.foldlM_cons, made, pure_bind]
        exact more
  have start : row (c :: s) [] = [s.length + 1] := by simp [row]
  rw [rowBy, sums _ _ short.le, pure_bind, ← start]
  exact loop [] b rfl

theorem foldlM_rowBy (a s b : List Char) (short : a.length + s.length < top)
    (short' : b.length < top) :
    (a.zipIdx s.length).foldlM (fun previous (c, i) => rowBy add cell b previous c i) (row s b) =
      pure (row (a.reverse ++ s) b) := by
  -- What was read before is `s`, from the last character to the first.
  induction a generalizing s with
  | nil => rfl
  | cons c a ih =>
      rw [List.length_cons] at short
      have next := rowBy_row sums cells c s b (by omega) short'
      have more := ih (c :: s) (by rw [List.length_cons]; omega)
      simp only [List.zipIdx_cons, List.foldlM_cons, next, pure_bind, List.reverse_cons,
        List.append_assoc]
      exact more

/-- For texts shorter than the largest word, it does not matter what sums beyond it come to, or
missing cells. -/
theorem distanceBy_eq (short : a.length < top) (short' : b.length < top) :
    distanceBy add cell a b = pure (distance a b) := by
  have start : List.range (b.length + 1) = row [] b := by
    refine List.ext_getElem (by simp [row]) fun i inside _ => ?_
    rw [List.length_range] at inside
    simp [row]
    omega
  have loop := foldlM_rowBy sums cells a [] b short short'
  rw [List.length_nil, List.append_nil] at loop
  rw [distanceBy, start, loop, pure_bind, row_last, distance_eq_fewest]
  rfl

end Words

theorem wordDistance_eq (missing : Nat) (short : a.length < top) (short' : b.length < top) :
    wordDistance top missing a b = distance a b := by
  have sums (x y : Nat) (fits : x + y ≤ top) : (pure (min (x + y) top) : Id Nat) = pure (x + y) :=
    congrArg pure (min_eq_left fits)
  have cells (x : Nat) : (pure ((some x).getD missing) : Id Nat) = pure x := rfl
  exact congrArg Id.run (distanceBy_eq sums cells short short')

theorem checkedDistance_eq (short : a.length < top) (short' : b.length < top) :
    checkedDistance top a b = some (distance a b) :=
  distanceBy_eq (fun _ _ fits => if_pos fits) (fun _ => rfl) short short'

end Rows

end Concordance.Text
