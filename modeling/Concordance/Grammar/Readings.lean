import Concordance.Grammar.Tree

/-! # Readings of a text

Several readings of a text are kept side by side. Each is a stack of trees with the
state after each of them. Stacks share what they have in common: a knot stands for a
state at a place, and its threads lead to the knots before it, each with the tree
between. Where readings meet in a state they become one, whose knot has the threads
of all.
-/

namespace Concordance.Grammar

/-- A way from a knot to one before it. -/
structure Thread (κ σ : Type) where
  /-- The knot before. -/
  knot : Nat
  /-- The tree between, or nothing where the state was given up. -/
  tree : Option (Tree κ σ)

/-- A state that a reading reached. -/
structure Knot (κ σ : Type) where
  state : Nat
  /-- Where it was reached. -/
  place : Place
  /-- The cost of the errors before it. -/
  cost : Nat := 0
  /-- The weight of the phrases before it. -/
  weight : Nat := 0
  /-- How many trees show before it. -/
  count : Nat := 0
  /-- The ways to the knots before it, the first found first. -/
  threads : List (Thread κ σ) := []

instance {κ σ : Type} : Inhabited (Knot κ σ) := ⟨⟨lost, .before [], 0, 0, 0, []⟩⟩

/-- A state that a reading was in before an error. -/
structure Landmark where
  place : Place
  /-- How many trees ago. -/
  depth : Nat
  state : Nat

/-- What is to be done with a reading. -/
inductive Status (κ σ : Type) where
  | active
  /-- It waits, since the next token does not fit. -/
  | paused (next : Tree κ σ)
  | halted

structure Head (κ σ : Type) where
  knot : Nat
  /-- How many trees showed when it was last in error. -/
  base : Nat
  /-- What the lexer has in mind. -/
  memory : Option σ
  status : Status κ σ
  /-- The states it may go back to. -/
  landmarks : Option (List Landmark)

instance {κ σ : Type} : Inhabited (Head κ σ) := ⟨⟨0, 0, none, .active, none⟩⟩

namespace Head

variable {κ σ : Type}

def isActive (h : Head κ σ) : Bool :=
  match h.status with
  | .active => true
  | _ => false

def isPaused (h : Head κ σ) : Bool :=
  match h.status with
  | .paused _ => true
  | _ => false

def isHalted (h : Head κ σ) : Bool :=
  match h.status with
  | .halted => true
  | _ => false

end Head

/-- The readings of a text so far. -/
structure Readings (κ σ : Type) where
  knots : Array (Knot κ σ)
  /-- The readings that are still considered. -/
  heads : List (Head κ σ)
  /-- The best tree found for the whole text. -/
  finished : Option (Tree κ σ) := none
  /-- How many trees were found for the whole text. -/
  found : Nat := 0

/-- How many readings are kept. -/
def headLimit : Nat := 6

/-- How many more there may be for a while. -/
def headSlack : Nat := 4

/-- How many threads a knot may have. -/
def threadLimit : Nat := 8

/-- How many ways are followed at a time. -/
def walkerLimit : Nat := 64

/-- A way back through the knots of a reading. -/
structure Walker (κ σ : Type) where
  knot : Nat
  /-- The trees passed, in the order of the text. -/
  trees : List (Tree κ σ)
  /-- How many of them are no extra ones. -/
  steps : Nat

def Walker.along {κ σ : Type} (w : Walker κ σ) (t : Thread κ σ) : Walker κ σ where
  knot := t.knot
  trees := t.tree.toList ++ w.trees
  steps := if t.tree.any Tree.extra then w.steps else w.steps + 1

namespace Readings

variable {κ σ : Type} [DecidableEq σ]

/-- The only reading of what stands before a text. -/
def before (text : Place) : Readings κ σ where
  knots := #[{ state := start, place := text }]
  heads := [⟨0, 0, none, .active, none⟩]

def knot (r : Readings κ σ) (n : Nat) : Knot κ σ := r.knots.getD n default

def head (r : Readings κ σ) (v : Nat) : Head κ σ := r.heads.getD v default

/-- The knot that a reading reached. -/
def top (r : Readings κ σ) (v : Nat) : Knot κ σ := r.knot (r.head v).knot

def editHead (r : Readings κ σ) (v : Nat) (f : Head κ σ → Head κ σ) : Readings κ σ :=
  { r with heads := r.heads.modify v f }

def halt (r : Readings κ σ) (v : Nat) : Readings κ σ :=
  r.editHead v fun h => { h with status := .halted }

def remove (r : Readings κ σ) (v : Nat) : Readings κ σ :=
  { r with heads := r.heads.eraseIdx v }

def replace (r : Readings κ σ) (source target : Nat) : Readings κ σ :=
  let moved := r.head source
  let landmarks := moved.landmarks.or (r.head target).landmarks
  { r with heads := (r.heads.set target { moved with landmarks }).eraseIdx source }

def copy (r : Readings κ σ) (v : Nat) : Readings κ σ :=
  { r with heads := r.heads ++ [{ r.head v with landmarks := none }] }

/-- Add a reading that goes on from a knot of another one. -/
def branch (r : Readings κ σ) (v knot : Nat) : Readings κ σ :=
  let h := r.head v
  { r with heads := r.heads ++ [⟨knot, h.base, h.memory, .active, none⟩] }

/-- The knot after a thread, in a state. -/
def knotAfter (r : Readings κ σ) (t : Thread κ σ) (state : Nat) : Knot κ σ :=
  let k := r.knot t.knot
  { state
    place := (t.tree.map Tree.stop).getD k.place
    cost := k.cost + (t.tree.map Tree.price).getD 0
    weight := k.weight + (t.tree.map Tree.weight).getD 0
    count := k.count + (t.tree.map Tree.count).getD 0
    threads := [t] }

/-- Go on with a tree to a state. Without a tree the count of what shows starts anew. -/
def push (r : Readings κ σ) (v : Nat) (tree : Option (Tree κ σ)) (state : Nat) : Readings κ σ :=
  let k := r.knotAfter ⟨(r.head v).knot, tree⟩ state
  let number := r.knots.size
  let base (h : Head κ σ) : Nat := if tree.isNone then k.count else h.base
  { r with
    knots := r.knots.push k
    heads := r.heads.modify v fun h => { h with knot := number, base := base h } }

/-- Go on with extra trees, which change no state. -/
def pushAll (r : Readings κ σ) (v : Nat) (trees : List (Tree κ σ)) (state : Nat) : Readings κ σ :=
  trees.foldl (fun r t => r.push v (some t) state) r

/-! ## Joining readings -/

/-- Whether two threads need not be told apart but for where they lead. -/
def likeThreads (a b : Option (Tree κ σ)) : Bool :=
  match a, b with
  | none, none => true
  | some a, some b => a.isLike b
  | _, _ => false

/-- What is done with a thread that a knot is given. -/
inductive Joint where
  /-- It goes beside the others. -/
  | beside
  /-- It is like the one at a position, and leads to the same knot. -/
  | same (position : Nat)
  /-- It is like the one at a position, which leads to another knot of the same state and place. -/
  | parallel (position : Nat)

/-- Find the thread that a new one is like, going through those of a knot. -/
def joint (r : Readings κ σ) (new : Thread κ σ) : Nat → List (Thread κ σ) → Joint
  | _, [] => .beside
  | position, t :: rest =>
      if likeThreads t.tree new.tree then
        let a := r.knot t.knot
        let b := r.knot new.knot
        if t.knot == new.knot then .same position
        else if a.state == b.state && a.place.bytes == b.place.bytes && a.cost == b.cost then
          .parallel position
        else joint r new (position + 1) rest
      else joint r new (position + 1) rest

/-- Give a knot another thread. This goes on with the knots before it where the new thread is like
one that it has, by recursion on an amount that exceeds the knots on the way. -/
def tie : Nat → Nat → Thread κ σ → Readings κ σ → Readings κ σ
  | 0, _, _, r => r
  | fuel + 1, n, new, r =>
      if new.knot == n then r
      else
        let k := r.knot n
        let before := r.knot new.knot
        let weight := before.weight + (new.tree.map Tree.weight).getD 0
        let count := before.count + (new.tree.map Tree.count).getD 0
        let edit (f : Knot κ σ → Knot κ σ) (r : Readings κ σ) : Readings κ σ :=
          { r with knots := r.knots.modify n f }
        match r.joint new 0 k.threads with
        | .same position =>
            let had := ((k.threads[position]?).bind Thread.tree).map Tree.weight
            if (new.tree.map Tree.weight).getD 0 > had.getD 0 then
              edit (fun k => { k with threads := k.threads.set position new, weight }) r
            else r
        | .parallel position =>
            let target := ((k.threads[position]?).map Thread.knot).getD 0
            let r := before.threads.foldl (fun r t => tie fuel target t r) r
            edit (fun k => { k with weight := max k.weight weight }) r
        | .beside =>
            if k.threads.length == threadLimit then r
            else
              edit (fun k => { k with
                threads := k.threads ++ [new]
                count := max k.count count
                weight := max k.weight weight }) r

def met (r : Readings κ σ) (v w : Nat) : Bool :=
  let a := r.top v
  let b := r.top w
  (r.head v).isActive && (r.head w).isActive && a.state == b.state &&
    a.place.bytes == b.place.bytes && a.cost == b.cost && (r.head v).memory == (r.head w).memory

/-- Make one of two readings that have met, dropping the second. -/
def merge (r : Readings κ σ) (v w : Nat) : Readings κ σ :=
  let n := (r.head v).knot
  let r := (r.top w).threads.foldl (fun r t => tie r.knots.size n t r) r
  let k := r.knot n
  let r := r.editHead v fun h => if k.state == lost then { h with base := k.count } else h
  r.remove w

/-- Make one of two readings if they have met, and tell whether they have. -/
def merge? (r : Readings κ σ) (v w : Nat) : Bool × Readings κ σ :=
  if r.met v w then (true, r.merge v w) else (false, r)

/-- Merge a reading with the first of the given ones that it has met. -/
def mergeInto (r : Readings κ σ) (v : Nat) : List Nat → Bool × Readings κ σ
  | [] => (false, r)
  | w :: rest => if r.met w v then (true, r.merge w v) else r.mergeInto v rest

/-! ## Going back -/

/-- Follow all ways back for one knot, in turn. `visit` sees every way before it is followed and
tells whether it stops there. -/
def stride {α : Type} (r : Readings κ σ) (visit : α → Walker κ σ → α × Bool) :
    List (Walker κ σ) → Nat → α → α × List (Walker κ σ) × List (Walker κ σ)
  | [], _, acc => (acc, [], [])
  | w :: rest, size, acc =>
      let (acc, stops) := visit acc w
      match (r.knot w.knot).threads, stops with
      | first :: others, false =>
          let more := (others.take (walkerLimit - size)).map w.along
          let (acc, kept, added) := stride r visit rest (size + more.length) acc
          (acc, w.along first :: kept, more ++ added)
      | _, _ => stride r visit rest (size - 1) acc

/-- Follow all ways back, by recursion on an amount that exceeds the length of the longest. -/
def walk {α : Type} (r : Readings κ σ) (visit : α → Walker κ σ → α × Bool) :
    Nat → List (Walker κ σ) → α → α
  | 0, _, acc => acc
  | _, [], acc => acc
  | fuel + 1, walkers, acc =>
      let (acc, kept, added) := r.stride visit walkers walkers.length acc
      walk r visit fuel (kept ++ added) acc

/-- Follow all ways back from a reading. -/
def walkFrom {α : Type} (r : Readings κ σ) (v : Nat) (visit : α → Walker κ σ → α × Bool)
    (acc : α) : α :=
  r.walk visit (r.knots.size + 1) [⟨(r.head v).knot, [], 0⟩] acc

/-- Add trees to those that lead to the same knot. -/
def addPath (paths : List (Nat × List (List (Tree κ σ)))) (knot : Nat) (trees : List (Tree κ σ)) :
    List (Nat × List (List (Tree κ σ))) :=
  match paths with
  | [] => [(knot, [trees])]
  | (k, all) :: rest =>
      if k == knot then (k, all ++ [trees]) :: rest else (k, all) :: addPath rest knot trees

/-- The knots that a number of trees ago a reading was at, with the trees since. -/
def back (r : Readings κ σ) (v count : Nat) : List (Nat × List (List (Tree κ σ))) :=
  r.walkFrom v (fun paths w =>
    if w.steps == count then (addPath paths w.knot w.trees, true) else (paths, false)) []

/-- All rows of trees that a reading consists of. -/
def backToStart (r : Readings κ σ) (v : Nat) : List (List (Tree κ σ)) :=
  r.walkFrom v (fun found w =>
    if (r.knot w.knot).threads.isEmpty then (found ++ [w.trees], true) else (found, false)) []

/-- How many trees back a reading may be taken up again. -/
def landmarkDepth : Nat := 16

/-- The states that a reading was in before, each once at every depth, the latest first. -/
def landmarks (r : Readings κ σ) (v : Nat) : List Landmark :=
  let visit (found : List Landmark) (w : Walker κ σ) : List Landmark × Bool :=
    if w.steps > landmarkDepth then (found, true)
    else
      let k := r.knot w.knot
      let known := (found.takeWhile fun m => w.steps ≤ m.depth).any fun m =>
        m.depth == w.steps && m.state == k.state
      (if known then found else ⟨k.place, w.steps, k.state⟩ :: found, false)
  (r.walkFrom v visit []).reverse

/-- Whether a reading has gone on without errors since its last error. -/
def isSettled (r : Readings κ σ) (v : Nat) : Bool :=
  let rec go : Nat → Knot κ σ → Bool
    | 0, _ => false
    | fuel + 1, k =>
        match k.threads.head?.bind fun t => t.tree.map (t.knot, ·) with
        | some (before, t) =>
            if t.stop.bytes > (r.knot before).place.bytes then true
            else if (r.head v).base < k.count && t.price == 0 then go fuel (r.knot before)
            else false
        | none => false
  let k := r.top v
  k.cost == 0 || go r.knots.size k

/-! ## Comparing readings -/

/-- What readings are compared by. -/
structure Standing where
  cost : Nat
  /-- How many trees show since the last error. -/
  count : Nat
  weight : Nat
  /-- Whether the reading is in error. -/
  astray : Bool

/-- Which of two readings is better, and whether the other one is given up for it. -/
inductive Verdict where
  | onlyFirst
  | first
  | even
  | second
  | onlySecond
  deriving Repr, DecidableEq

/-- How much worse a reading may be. -/
def tolerance : Nat := 1800

/-- Compare two readings. A difference weighs the more the longer the better one has gone on. -/
def Standing.compare (a b : Standing) : Verdict :=
  let gap (good bad : Standing) : Nat := (bad.cost - good.cost) * (1 + good.count)
  if !a.astray && b.astray then (if a.cost < b.cost then .onlyFirst else .first)
  else if a.astray && !b.astray then (if b.cost < a.cost then .onlySecond else .second)
  else if a.cost < b.cost then (if gap a b > tolerance then .onlyFirst else .first)
  else if b.cost < a.cost then (if gap b a > tolerance then .onlySecond else .second)
  else if a.weight > b.weight then .first
  else if b.weight > a.weight then .second
  else .even

def cost (r : Readings κ σ) (v : Nat) : Nat :=
  let k := r.top v
  let freshlyLost := k.state == lost && (k.threads.head?.all fun t => t.tree.isNone)
  k.cost + (if (r.head v).isPaused || freshlyLost then Cost.error else 0)

/-- Count what shows from the knot of a reading if it went back behind its last error. -/
def rebase (r : Readings κ σ) (v : Nat) : Readings κ σ :=
  let count := (r.top v).count
  r.editHead v fun h => { h with base := min h.base count }

def countSinceError (r : Readings κ σ) (v : Nat) : Nat := (r.top v).count - (r.head v).base

def standing (r : Readings κ σ) (v : Nat) : Standing :=
  let paused := (r.head v).isPaused
  { cost := r.cost v + (if paused then Cost.tree else 0)
    count := r.countSinceError v
    weight := (r.top v).weight
    astray := paused || (r.top v).state == lost }

/-- Whether a reading would be given up for one that there is if it had the given cost. -/
def isHopeless (r : Readings κ σ) (v cost : Nat) : Bool × Readings κ σ :=
  if r.finished.any fun t => t.price ≤ cost then (true, r)
  else
    let r := r.rebase v
    let place := (r.top v).place
    let own : Standing := ⟨cost, r.countSinceError v, (r.top v).weight, false⟩
    (List.range r.heads.length).foldl (fun (done, r) w =>
      let behind := (r.top w).place.bytes < place.bytes
      if done || w == v || !(r.head w).isActive || behind then (done, r)
      else
        let r := r.rebase w
        let verdict := own.compare (r.standing w)
        (verdict == .onlySecond || (verdict == .second && r.met w v), r)) (false, r)

end Readings

end Concordance.Grammar
