/-! # Edit distance and near matches

The number of single-character edits between two texts, and the few texts of a
collection that are near enough to a misspelt one to be offered instead.
-/

namespace Concordance.Text

/-- One cell after another of the row below `above`, for the character `c` of the first text.
`diagonal` is the cell above the one to the left of the next cell, `left` the cell to its left. -/
def distanceCells (c : Char) (diagonal left : Nat) : List Char → List Nat → List Nat
  | d :: ds, up :: ups =>
      let cell := min (min (left + 1) (up + 1)) (diagonal + if c == d then 0 else 1)
      cell :: distanceCells c up cell ds ups
  | _, _ => []

/-- The row of distances from a text one character longer, given the row above it. -/
def distanceRow (b : List Char) (above : List Nat) (c : Char) : List Nat :=
  match above with
  | [] => []
  | first :: rest => (first + 1) :: distanceCells c first (first + 1) b rest

/-- Fewest insertions, deletions and substitutions of one character that turn one text into the
other, computed row by row. -/
def distance (a b : List Char) : Nat :=
  (a.foldl (distanceRow b) (List.range (b.length + 1))).getLastD 0

/-- How many near matches are offered at most. -/
def nearestLimit : Nat := 3

/-- How many edits still count as near: half of the text's characters, and three at least. -/
def nearness (name : String) : Nat :=
  max (name.toList.length / 2) 3

/-- Order of near matches: by distance, and then by text. -/
def nearerOrEqual (a b : Nat × String) : Bool :=
  (compareLex (compareOn Prod.fst) (compareOn Prod.snd) a b).isLE

/-- Drop every element that equals the one before it. -/
def dropRepeats {α : Type} [BEq α] : List α → List α
  | [] => []
  | [a] => [a]
  | a :: b :: rest => if a == b then dropRepeats (b :: rest) else a :: dropRepeats (b :: rest)

/-- The nearest of the candidates, best first. -/
def nearest (name : String) (candidates : List String) : List String :=
  let scored := candidates.map fun candidate =>
    (distance name.toList candidate.toList, candidate)
  let near := scored.filter fun (d, _) => d ≤ nearness name
  ((dropRepeats (near.mergeSort nearerOrEqual)).take nearestLimit).map Prod.snd

end Concordance.Text
