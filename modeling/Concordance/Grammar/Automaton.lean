import Std.Data.HashMap
import Concordance.Grammar.Rule

/-! # Automata

The automaton of a grammar reads a text from left to right. Each of its states
stands for a set of items, the places in phrases that the reading may have reached,
together with the tokens that may follow each phrase.

An item keeps of what was read only what building the part takes: how many steps
there were and which labels they bear. Places in different phrases that agree in this
and in what lies ahead are one item.
-/

namespace Concordance.Grammar

/-- What a step reads, by its number. -/
inductive Sign where
  | token (number : Nat)
  /-- A part or a repetition. -/
  | part (number : Nat)
  deriving DecidableEq, Hashable

structure Step (κ : Type) where
  sign : Sign
  label : Option κ
  deriving DecidableEq, Hashable

/-- A place in a phrase. -/
structure Item (κ : Type) where
  /-- The part that the phrase makes up. -/
  goal : Nat
  weight : Nat
  /-- How many steps were read. -/
  taken : Nat
  labels : List (Option κ)
  /-- The steps that lie ahead. -/
  ahead : List (Step κ)
  deriving DecidableEq, Hashable

namespace Item

variable {κ : Type}

/-- The item after the next step. -/
def moved (i : Item κ) : Item κ where
  goal := i.goal
  weight := i.weight
  taken := i.taken + 1
  labels := i.labels ++ (i.ahead.take 1).map Step.label
  ahead := i.ahead.drop 1

/-- The items of a phrase from the given one on. -/
def onward (i : Item κ) : List (Item κ) :=
  (List.range (i.ahead.length + 1)).map fun n => Nat.repeat moved n i

end Item

structure Catalog (κ : Type) [DecidableEq κ] [Hashable κ] where
  items : Array (Item κ)
  /-- The number of each. -/
  numbers : Std.HashMap (Item κ) Nat

namespace Catalog

variable {κ : Type} [DecidableEq κ] [Hashable κ]

/-- Give an item a number unless it has one. -/
def add (c : Catalog κ) (i : Item κ) : Catalog κ :=
  if c.numbers.contains i then c
  else ⟨c.items.push i, c.numbers.insert i c.items.size⟩

/-- Number items in the order in which they come. -/
def ofList (items : List (Item κ)) : Catalog κ := items.foldl add ⟨#[], {}⟩

def number (c : Catalog κ) (i : Item κ) : Nat := c.numbers.getD i 0

end Catalog

/-- A set of tokens, as the bits of a number. -/
abbrev TokenSet := Nat

/-- How a part begins that another part begins with. -/
structure Reach where
  goal : Nat
  /-- Tokens that may follow it. -/
  follow : TokenSet
  /-- Whether whatever follows the other part may follow it too. -/
  final : Bool

/-- A grammar with numbers for its parts and items, and what follows from it before the states of
its automaton are found. -/
structure Survey (κ : Type) where
  items : Array (Item κ)
  /-- For each item, the one after its next step. -/
  moved : Array Nat
  /-- For each part, the items at the start of its phrases. -/
  starts : Array (List Nat)
  /-- For each part, the tokens it may begin with. -/
  first : Array TokenSet
  /-- For each part, the parts that it may begin with, itself among them. -/
  reach : Array (List Reach)
  tokenCount : Nat
  /-- The pairs of parts that are read both ways. -/
  rivals : List (Nat × Nat)

namespace Survey

variable {κ : Type}

/-- The number of parts. The whole text with its end has this number. -/
def partCount (s : Survey κ) : Nat := s.starts.size

/-- The tokens that a sign may begin with. -/
def firstOf (first : Array TokenSet) : Sign → TokenSet
  | .token t => 1 <<< t
  | .part p => first.getD p 0

/-- The tokens that each part may begin with, from the signs that the phrases of each begin with. -/
def findFirst (openings : Array (List Sign)) : Array TokenSet :=
  let grow (first : Array TokenSet) : Array TokenSet :=
    openings.map fun signs => signs.foldl (fun m s => m ||| firstOf first s) 0
  Nat.repeat grow openings.size (openings.map fun _ => 0)

/-- The parts that phrases begin with, each with the tokens that may follow it in its phrase, or
nothing if the phrase ends there. -/
def leading (first : Array TokenSet) (steps : List (Step κ)) : Option (Nat × Option TokenSet) :=
  match steps with
  | ⟨.part p, _⟩ :: next :: _ => some (p, some (firstOf first next.sign))
  | ⟨.part p, _⟩ :: [] => some (p, none)
  | _ => none

/-- Follow the parts at the beginning of parts, by recursion on an amount that exceeds the number of
changes there can be. -/
def findReach (leads : Array (List (Nat × Option TokenSet))) :
    Nat → List Nat → Array (Option (TokenSet × Bool)) → Array (Option (TokenSet × Bool))
  | 0, _, known => known
  | _, [], known => known
  | fuel + 1, p :: work, known =>
      let (own, final) := (known.getD p none).getD (0, false)
      let (work, known) := (leads.getD p []).foldl (fun (work, known) (q, follow) =>
        let (more, more?) := match follow with
          | some tokens => (tokens, false)
          | none => (own, final)
        match known.getD q none with
        | none => (q :: work, known.setIfInBounds q (some (more, more?)))
        | some (had, had?) =>
            let now := (had ||| more, had? || more?)
            if now == (had, had?) then (work, known)
            else (q :: work, known.setIfInBounds q (some now))) (work, known)
      findReach leads fuel work known

/-- Number the parts and items of a grammar. -/
def ofRules {τ π : Type} [DecidableEq τ] [DecidableEq π] [DecidableEq κ] [Hashable κ]
    (g : Rulebook τ π κ) : Survey κ :=
  let table := g.phraseTable
  let symbols := table.map Prod.fst
  let sign (s : Symbol τ π κ) : Sign := match s with
    | .token t => .token (g.tokenNumber t)
    | s => .part (symbols.idxOf s)
  let phrases : List (Nat × List (Item κ)) := table.zipIdx.map fun ((_, phrases), goal) =>
    (goal, phrases.map fun ph =>
      ⟨goal, ph.weight, 0, [], ph.steps.map fun s => ⟨sign s.symbol, s.label⟩⟩)
  let whole : Item κ := ⟨table.length, 0, 0, [], [⟨.part 0, none⟩]⟩
  let all := whole.onward ++ phrases.flatMap fun (_, starts) => starts.flatMap Item.onward
  let catalog := Catalog.ofList all
  let starts := phrases.map Prod.snd
  let openings := starts.map fun is => is.filterMap fun i => i.ahead.head?.map Step.sign
  let first := findFirst openings.toArray
  let leads := (starts.map fun is =>
    (is.filterMap fun i => leading first i.ahead).eraseDups).toArray
  let none' : Array (Option (TokenSet × Bool)) := leads.map fun _ => none
  let fuel := leads.size * (g.tokens.length + 2)
  let reach := (List.range leads.size).map fun p =>
    (findReach leads fuel [p] (none'.setIfInBounds p (some (0, true)))).toList.zipIdx.filterMap
      fun (found, q) => found.map fun (follow, final) => ⟨q, follow, final⟩
  { items := catalog.items
    moved := catalog.items.map fun i => catalog.number i.moved
    starts := (starts.map fun is => is.map catalog.number).toArray
    first
    reach := reach.toArray
    tokenCount := g.tokens.length
    rivals := g.rivals.map fun (a, b) => (symbols.idxOf a, symbols.idxOf b) }

end Survey

/-- The items that a state stands for, in the order of their numbers, with the tokens that may
follow; the items at the start of phrases follow from the others and are left out. -/
abbrev Kernel := List (Nat × TokenSet)

def Kernel.insert (item : Nat) (tokens : TokenSet) : Kernel → Kernel
  | [] => [(item, tokens)]
  | (i, had) :: rest =>
      if item < i then (item, tokens) :: (i, had) :: rest
      else if item == i then (i, had ||| tokens) :: rest
      else (i, had) :: Kernel.insert item tokens rest

/-- How a part is built once its phrase was read. -/
structure Build (κ : Type) where
  goal : Nat
  /-- How many steps make it up. -/
  count : Nat
  weight : Nat
  labels : List (Option κ)

/-- What is done on a token. -/
structure Choice (κ : Type) where
  /-- Build a part. -/
  build : Option (Build κ)
  /-- Read the token and go on in a state. -/
  shift : Option Nat
  /-- Take the text as read. -/
  accepts : Bool

structure State (κ : Type) where
  /-- What is done on each token. -/
  choices : Array (Option (Choice κ))
  /-- The state after each part. -/
  next : Array Nat
  /-- The parts that are built on some token other than the end. -/
  builds : List (Build κ)
  /-- Whether some token other than the end is read. -/
  shifts : Bool

/-- The states of a grammar. -/
structure Automaton (κ : Type) where
  states : Array (State κ)
  tokenCount : Nat
  /-- For each token, the label it bears everywhere. -/
  tokenLabels : Array (Option κ)
  /-- For each part, the label it bears everywhere. -/
  partLabels : Array (Option κ)

/-- The state in which nothing fits what was read. -/
def lost : Nat := 0

def start : Nat := 1

/-- States that are known, and their numbers. -/
structure Draft where
  /-- What each state stands for. -/
  kernels : Array Kernel
  /-- The number of each state. -/
  numbers : Std.HashMap Kernel Nat

/-- The number of a state, which is a new one unless it is known. -/
def Draft.number (k : Kernel) : StateM Draft Nat := fun d =>
  match d.numbers[k]? with
  | some n => (n, d)
  | none => (d.kernels.size, ⟨d.kernels.push k, d.numbers.insert k d.kernels.size⟩)

namespace Survey

variable {κ : Type}

/-- For each part that may begin at a kernel, the tokens that may follow it. -/
def beginnings (s : Survey κ) (k : Kernel) : Array TokenSet :=
  k.foldl (fun follow (i, tokens) =>
    match (s.items[i]?).map Item.ahead with
    | some (⟨.part p, _⟩ :: rest) =>
        let after := match rest with
          | [] => tokens
          | next :: _ => firstOf s.first next.sign
        (s.reach.getD p []).foldl (fun follow r =>
          follow.modify r.goal (· ||| r.follow ||| (if r.final then after else 0))) follow
    | _ => follow) (Array.replicate s.partCount 0)

/-- The items at the start of the parts that may begin at a kernel. -/
def opened (s : Survey κ) (k : Kernel) : Kernel :=
  ((s.beginnings k).toList.zip s.starts.toList).flatMap fun (tokens, starts) =>
    if tokens == 0 then [] else starts.map (·, tokens)

/-- The part that is built at an item, if its phrase was read. The whole text is not built. -/
def build? (s : Survey κ) (i : Nat) : Option (Build κ) :=
  match s.items[i]? with
  | some ⟨goal, weight, taken, labels, []⟩ =>
      if goal < s.partCount then some ⟨goal, taken, weight, labels⟩ else none
  | _ => none

/-- Whether the text ends at an item. -/
def isEnd (s : Survey κ) (i : Nat) : Bool :=
  match s.items[i]? with
  | some ⟨goal, _, _, _, []⟩ => goal == s.partCount
  | _ => false

/-- Whether a part is built although another goes on with the token. -/
def hesitates (s : Survey κ) (k : Kernel) (token : Nat) (b : Build κ) : Bool :=
  k.any fun (i, _) =>
    match s.items[i]? with
    | some ⟨goal, _, _, _, next :: _⟩ =>
        (firstOf s.first next.sign).testBit token && s.rivals.contains (b.goal, goal)
    | _ => false

/-- What is done on a token, where the given parts were read completely, each with the tokens that
may follow. Of two such parts the one listed later is preferred. -/
def choice (s : Survey κ) (k : Kernel) (read : List (Build κ × TokenSet)) (ends shift : Option Nat)
    (token : Nat) : Option (Choice κ) :=
  let build := read.foldl (fun best (b, tokens) =>
    if tokens.testBit token && best.all fun c : Build κ => c.goal < b.goal then some b
    else best) none
  let build := if shift.isSome then build.filter (s.hesitates k token) else build
  let accepts := ends == some token
  if build.isNone && shift.isNone && !accepts then none else some ⟨build, shift, accepts⟩

def state (s : Survey κ) (k : Kernel) : StateM Draft (State κ) := do
  let all := k ++ s.opened k
  let noMoves : Array Kernel := Array.replicate s.tokenCount []
  let noSteps : Array Kernel := Array.replicate s.partCount []
  let (moves, steps) := all.foldl (fun (moves, steps) (i, tokens) =>
    match (s.items[i]?).bind fun item => item.ahead.head? with
    | some ⟨.token t, _⟩ => (moves.modify t (Kernel.insert (s.moved.getD i 0) tokens), steps)
    | some ⟨.part p, _⟩ => (moves, steps.modify p (Kernel.insert (s.moved.getD i 0) tokens))
    | none => (moves, steps)) (noMoves, noSteps)
  let moves ← moves.mapM fun k => if k.isEmpty then pure none else some <$> Draft.number k
  let next ← steps.mapM fun k => if k.isEmpty then pure lost else Draft.number k
  let read := all.filterMap fun (i, tokens) => (s.build? i).map (·, tokens)
  let ends := if k.any fun (i, _) => s.isEnd i then some 0 else none
  let choices := moves.mapIdx fun t shift => s.choice k read ends shift t
  let inner := (choices.toList.drop 1).filterMap id
  let builds := (inner.filterMap Choice.build).foldl (fun known b =>
    if known.any fun c => c.goal == b.goal && c.count == b.count then known
    else known ++ [b]) []
  return ⟨choices, next, builds, inner.any fun c => c.shift.isSome⟩

/-- Find the states from the one with the given number on, at most the given amount of them. -/
def explore (s : Survey κ) : Nat → Nat → Draft → Array (State κ) → Array (State κ)
  | 0, _, _, states => states
  | fuel + 1, n, d, states =>
      match d.kernels[n]? with
      | none => states
      | some k =>
          let (state, d) := s.state k d
          explore s fuel (n + 1) d (states.push state)

/-- More states than any grammar here has. -/
def stateLimit : Nat := 100000

def states (s : Survey κ) : Array (State κ) :=
  let begin_ : Kernel := [(0, 1)]
  explore s stateLimit 0 ⟨#[[], begin_], .ofList [([], lost), (begin_, start)]⟩ #[]

end Survey

def Automaton.ofRules {τ π κ : Type} [DecidableEq τ] [DecidableEq π] [DecidableEq κ] [Hashable κ]
    (g : Rulebook τ π κ) : Automaton κ where
  states := (Survey.ofRules g).states
  tokenCount := g.tokens.length
  tokenLabels := (g.tokens.map g.tokenLabel).toArray
  partLabels := (g.parts.map (g.partLabel ∘ Prod.fst) ++ g.runs.map fun _ => none).toArray

end Concordance.Grammar
