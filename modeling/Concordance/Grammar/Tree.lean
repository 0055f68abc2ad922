import Concordance.Grammar.Automaton
import Concordance.Grammar.Place

/-! # Trees

What was read of a text: tokens, and parts made up of what was read before. Where the
text does not fit the grammar, trees are put together as errors, and every error has a
cost by which readings are compared.
-/

namespace Concordance.Grammar

/-- What a stretch of text was read as. -/
inductive Reading where
  /-- A row of trees that were passed over, within an error. -/
  | passed
  | error
  | token (number : Nat)
  | part (number : Nat)
  deriving Repr, DecidableEq

namespace Reading

def precedes : Reading → Reading → Bool
  | passed, b => b != passed
  | error, b => b != passed && b != error
  | token m, token n => m < n
  | token _, part _ => true
  | part m, part n => m < n
  | _, _ => false

/-- Whether this is an error or within one. -/
def isAstray (r : Reading) : Bool := r == error || r == passed

end Reading

/-! ## Costs of errors -/

namespace Cost

/-- The cost of every error. -/
def error : Nat := 500

/-- The cost of a token that is taken to stand where it does not. -/
def missing : Nat := 110

/-- The cost of a tree within an error. -/
def tree : Nat := 100

/-- The cost of a byte within an error. -/
def byte : Nat := 1

/-- The cost of a line end within an error. -/
def line : Nat := 30

end Cost

/-- A stretch of text with what it was read as. `σ` is what a lexer keeps in mind. -/
structure Tree (κ σ : Type) where
  reading : Reading
  /-- The label it bears everywhere. -/
  label : Option κ
  start : Place
  stop : Place
  /-- The cost of the errors in it. -/
  cost : Nat := 0
  /-- The weight of the phrases in it. -/
  weight : Nat := 0
  /-- How many trees show directly below it. -/
  shown : Nat := 0
  /-- How many trees show anywhere below it. -/
  shownBelow : Nat := 0
  /-- Whether it stands beside the steps of a phrase. -/
  extra : Bool := false
  /-- Whether it is a token that does not stand in the text. -/
  missing : Bool := false
  /-- What the lexer has in mind after it, if it holds tokens that depend on this. -/
  memory : Option σ := none
  /-- Whether the lexer changed its mind within it. -/
  turned : Bool := false
  /-- The labels of the trees it is made of, extra ones left out. -/
  labels : List (Option κ) := []
  children : List (Tree κ σ) := []

namespace Tree

variable {κ σ : Type}

def isError (t : Tree κ σ) : Bool := t.reading == .error

/-- Whether it shows wherever it stands. -/
def shows (t : Tree κ σ) : Bool := t.isError || t.label.isSome

/-- Whether it is made of no trees. -/
def isLeaf (t : Tree κ σ) : Bool := t.children.isEmpty

/-- The cost that it adds to what holds it. -/
def price (t : Tree κ σ) : Nat := if t.missing then Cost.missing + Cost.error else t.cost

def passingCost (t : Tree κ σ) : Nat :=
  Cost.byte * (t.stop.bytes - t.start.bytes) + Cost.line * (t.stop.lines - t.start.lines)

/-- How many trees show in it, itself among them. -/
def count (t : Tree κ σ) : Nat :=
  t.shownBelow + (if t.shows then 1 else 0) + (if t.reading == .passed then 1 else 0)

/-- Trees with their labels where they stand. -/
def withLabels : List (Option κ) → List (Tree κ σ) → List (Tree κ σ × Option κ)
  | _, [] => []
  | labels, t :: rest =>
      if t.extra then (t, none) :: withLabels labels rest
      else (t, labels.head?.join) :: withLabels labels.tail rest

/-- The cost of a tree within an error, beyond its own. -/
def strayCost (t : Tree κ σ) : Nat :=
  if t.extra || (t.isError && t.isLeaf) then 0
  else if t.shows then Cost.tree
  else if t.isLeaf then 0
  else Cost.tree * t.shown

/-- A tree made of trees; `place` is where it stands if there are none. -/
def node (reading : Reading) (label : Option κ) (labels : List (Option κ)) (place : Place)
    (children : List (Tree κ σ)) : Tree κ σ :=
  let labelled := withLabels labels children
  let apparent (p : Tree κ σ × Option κ) : Bool := p.2.isSome || p.1.shows
  let sum {α : Type} (f : α → Nat) (xs : List α) : Nat := xs.foldl (fun n x => n + f x) 0
  let plain : Tree κ σ := {
    reading
    label
    start := (children.head?.map Tree.start).getD place
    stop := (children.getLast?.map Tree.stop).getD place
    cost := sum (fun t => if t.reading == .passed then 0 else t.price) children
    weight := sum Tree.weight children
    shown := sum (fun p => if apparent p then 1 else if p.1.isLeaf then 0 else p.1.shown) labelled
    shownBelow := sum (fun p => p.1.shownBelow + (if apparent p then 1 else 0)) labelled
    memory := children.foldl (fun m t => t.memory.or m) none
    turned := children.any Tree.turned
    labels
    children }
  if reading.isAstray then
    { plain with
      cost := plain.cost + sum strayCost children + Cost.error + plain.passingCost }
  else plain

/-- Trees put together as an error. -/
def error (place : Place) (children : List (Tree κ σ)) : Tree κ σ :=
  node .error none [] place children

/-- Trees passed over within an error. -/
def passed (place : Place) (children : List (Tree κ σ)) : Tree κ σ :=
  node .passed none [] place children

/-- Trees apart from the extra ones at the end, and those. -/
def splitExtras (trees : List (Tree κ σ)) : List (Tree κ σ) × List (Tree κ σ) :=
  let extras := (trees.reverse.takeWhile Tree.extra).reverse
  (trees.take (trees.length - extras.length), extras)

/-- Compare trees by what they were read as, the outermost and leftmost difference first; this goes
through pairs of trees still to compare, by recursion on an amount that exceeds their number. -/
def compare : Nat → List (Tree κ σ × Tree κ σ) → Ordering
  | 0, _ => .eq
  | _, [] => .eq
  | fuel + 1, (a, b) :: rest =>
      if a.reading.precedes b.reading then .lt
      else if b.reading.precedes a.reading then .gt
      else if a.children.length < b.children.length then .lt
      else if b.children.length < a.children.length then .gt
      else compare fuel (a.children.zip b.children ++ rest)

/-- An amount of trees that is not exceeded by a tree that is compared. -/
def compareLimit : Nat := 1000000000

/-- Whether the second of two trees for the same text is the better one. -/
def isBeaten (a b : Tree κ σ) : Bool :=
  if b.price < a.price then true
  else if a.price < b.price then false
  else if a.weight < b.weight then true
  else if b.weight < a.weight then false
  else if 0 < a.price then true
  else compare compareLimit [(a, b)] == .gt

/-- Whether two trees need not be told apart. Trees with errors need not; neither do trees of the
same reading and extent. -/
def isLike [DecidableEq σ] (a b : Tree κ σ) : Bool :=
  let own (t : Tree κ σ) : Option σ := if t.isLeaf then t.memory else none
  a.reading == b.reading &&
    ((0 < a.price && 0 < b.price) ||
      (a.start.bytes == b.start.bytes && a.stop.bytes == b.stop.bytes &&
        a.children.length == b.children.length && a.extra == b.extra && own a == own b))

end Tree

end Concordance.Grammar
