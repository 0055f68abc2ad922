import Concordance.Grammar.Readings

/-! # Parsing

A text is read by an automaton, token by token. Where the grammar leaves open what a
token is part of, both readings go on. Where no reading goes on, the text is taken up
again with as little left out as possible: a token is taken to stand where it does not,
or an earlier state is taken up and what was read since is passed over, or the next
token is. Of all readings that reach the end, the one with the least cost wins.
-/

namespace Concordance.Grammar

/-- How tokens are found in a text. -/
structure Lexer (σ : Type) where
  /-- What it has in mind at the start of a text. -/
  fresh : σ
  /-- Find one of the given tokens whose place depends on what the lexer has in mind: the token, its
  end, and what the lexer has in mind after it. -/
  scan : σ → (Nat → Bool) → Place → Option (Nat × Place × σ)
  /-- Find one of the given tokens that are told by their characters alone. -/
  read : (Nat → Bool) → Place → Option (Nat × Place)

/-- The means of reading a kind of text. -/
structure Parser (κ σ : Type) where
  automaton : Automaton κ
  lexer : Lexer σ

namespace Automaton

variable {κ : Type}

/-- What is done in a state on a token. -/
def choice? (a : Automaton κ) (state : Nat) : Reading → Option (Choice κ)
  | .token t => (a.states[state]?).bind fun s => s.choices.getD t none
  | _ => none

/-- The state after what was read in a state. -/
def after (a : Automaton κ) (state : Nat) : Reading → Nat
  | .token t => ((a.choice? state (.token t)).bind Choice.shift).getD lost
  | .part p => ((a.states[state]?).map fun s => s.next.getD p lost).getD lost
  | _ => lost

/-- Whether a token is looked for in a state. Where nothing fits, all are. -/
def seeks (a : Automaton κ) (state token : Nat) : Bool :=
  state == lost || (a.choice? state (.token token)).isSome

def label (a : Automaton κ) : Reading → Option κ
  | .token t => a.tokenLabels.getD t none
  | .part p => a.partLabels.getD p none
  | _ => none

end Automaton

namespace Parser

variable {κ σ : Type} [DecidableEq σ]

/-! ## Tokens -/

/-- A token as a tree. The end of the text stands beside the phrases. -/
def leaf (p : Parser κ σ) (token : Nat) (start stop : Place) : Tree κ σ where
  reading := .token token
  label := p.automaton.label (.token token)
  start
  stop
  extra := token == 0

/-- The place after a byte order mark at the start of a text. -/
def afterMark (here : Place) : Place :=
  if here.bytes == 0 && here.rest.head? == some '\ufeff' then here.next else here

/-- The token at a place. It is looked for among those sought in the state `mode`. A token without
characters counts only if the lexer changed its mind, or if it leads on from `state` in a reading
that is settled. -/
def tokenAt? (p : Parser κ σ) (state mode : Nat) (memory : Option σ) (settled : Bool)
    (here : Place) : Option (Tree κ σ) :=
  let begin_ := afterMark here
  let seeks := p.automaton.seeks mode
  let scanned := (p.lexer.scan (memory.getD p.lexer.fresh) seeks begin_).bind
    fun (token, stop, mind) =>
      let turned := memory != some mind
      let idle := stop.bytes ≤ here.bytes && !turned
      if idle && (mode == lost || !settled || p.automaton.after state (.token token) == state) then
        none
      else some { p.leaf token begin_ stop with memory := some mind, turned }
  match scanned with
  | some t => some t
  | none =>
      match p.lexer.read seeks begin_ with
      | some (token, stop) => some (p.leaf token begin_ stop)
      | none => if begin_.rest.isEmpty && seeks 0 then some (p.leaf 0 begin_ begin_) else none

/-- The first place from here on where a token is found if nothing fits, by recursion on an amount
that exceeds the characters that are left. -/
def nextFit (p : Parser κ σ) (memory : Option σ) (settled : Bool) : Nat → Place → Place
  | 0, here => here
  | fuel + 1, here =>
      if here.rest.isEmpty || (p.tokenAt? lost lost memory settled here).isSome then here
      else nextFit p memory settled fuel here.next

/-- The token at the place that a reading reached, or as an error the characters that make up
none. -/
def nextToken (p : Parser κ σ) (r : Readings κ σ) (v : Nat) : Tree κ σ :=
  let k := r.top v
  let memory := (r.head v).memory
  let settled := r.isSettled v
  let here := k.place
  match (p.tokenAt? k.state k.state memory settled here).or
      (p.tokenAt? k.state lost memory settled here) with
  | some t => t
  | none =>
      let begin_ := afterMark here
      let stop := p.nextFit memory settled begin_.rest.length begin_.next
      { reading := .error, label := none, start := begin_, stop }

/-! ## Building parts -/

/-- The best tree that a part is built of, and the extra trees after it. -/
def buildTree (p : Parser κ σ) (b : Build κ) (place : Place) (rows : List (List (Tree κ σ))) :
    Tree κ σ × List (Tree κ σ) :=
  let made (trees : List (Tree κ σ)) : Tree κ σ × List (Tree κ σ) :=
    let (trees, extras) := Tree.splitExtras trees
    (.node (.part b.goal) (p.automaton.label (.part b.goal)) b.labels place trees, extras)
  match rows with
  | [] => made []
  | first :: rest =>
      let (tree, extras) := rest.foldl (fun best row =>
        let other := made row
        if best.1.isBeaten other.1 then other else best) (made first)
      ({ tree with weight := tree.weight + b.weight }, extras)

/-- Build a part at the end of a reading, once for each knot that its first tree may follow. Each
becomes a reading of its own, unless it meets one that there is. The first of them is told. -/
def build (p : Parser κ σ) (v : Nat) (b : Build κ) (r : Readings κ σ) :
    Option Nat × Readings κ σ :=
  let known := r.heads.length
  let place := (r.top v).place
  let r := (r.back v b.count).foldl (fun r (knot, rows) =>
    let w := r.heads.length
    if w > headLimit + headSlack then r
    else
      let (tree, extras) := p.buildTree b place rows
      let state := p.automaton.after (r.knot knot).state tree.reading
      let r := ((r.branch v knot).push w (some tree) state).pushAll w extras state
      (r.mergeInto w ((List.range w).filter (· != v))).2) r
  (if known < r.heads.length then some known else none, r)

/-- Take the text as read at the end of a reading. -/
def accept (v : Nat) (finish : Tree κ σ) (r : Readings κ σ) : Readings κ σ :=
  let r := r.push v (some finish) start
  let r := (r.backToStart v).foldl (fun r trees =>
    let (before, extras) := Tree.splitExtras trees
    match before.getLast? with
    | none => r
    | some t =>
        let root := Tree.node t.reading t.label t.labels t.start
          (before.dropLast ++ t.children ++ extras)
        let root := { root with weight := max root.weight t.weight }
        let better := r.finished.all fun had => had.isBeaten root
        { r with finished := if better then some root else r.finished, found := r.found + 1 }) r
  r.halt v

/-- Build all parts that can be built at the end of a reading, whatever comes next or, if `next` is
given, before this token. Tells whether a token can be read then. Goes through the reading `v` and
those that arise, numbered from `first` on, by recursion on an amount that exceeds their number. -/
def buildAll (p : Parser κ σ) (begin_ first : Nat) (next : Option Reading) :
    Nat → Nat → Nat → Bool → Readings κ σ → Bool × Readings κ σ
  | 0, _, _, can, r => (can, r)
  | fuel + 1, round, v, can, r =>
      let count := r.heads.length
      if count ≤ v then (can, r)
      else
        let (merged, r) := r.mergeInto v ((List.range v).drop first)
        if merged then buildAll p begin_ first next fuel (round + 1) v can r
        else
          let state := (r.top v).state
          let (builds, shifts) := match next with
            | some t =>
                match p.automaton.choice? state t with
                | some c => (c.build.toList.filter fun b : Build κ => 0 < b.count, c.shift.isSome)
                | none => ([], state == lost)
            | none =>
                match p.automaton.states[state]? with
                | some s =>
                    (s.builds.filter fun b : Build κ => 0 < b.count, s.shifts || state == lost)
                | none => ([], true)
          let (built, r) := builds.foldl (fun (_, r) b => p.build v b r) (none, r)
          let onward := if v == begin_ then count else v + 1
          if shifts then buildAll p begin_ first next fuel (round + 1) onward true r
          else
            match built, decide (round < headLimit) with
            | some w, true =>
                buildAll p begin_ first next fuel (round + 1) v can (r.replace w v)
            | _, _ =>
                let r := if next.isSome then r.remove v else r
                buildAll p begin_ first next fuel (round + 1) onward can r

/-- More readings than arise when all parts are built. -/
def buildLimit : Nat := 10000

/-- Build all parts that can be built at the end of a reading. At the end of the text they are built
whatever comes next. -/
def buildAllAt (p : Parser κ σ) (v : Nat) (next : Option Reading) (r : Readings κ σ) :
    Bool × Readings κ σ :=
  p.buildAll v r.heads.length (next.filter (· != .token 0)) buildLimit 0 v false r

/-! ## Errors -/

/-- Take up a state that a reading was in a number of trees ago, and put what was read since
together as an error. Tells whether the state was found. -/
def resume (v depth goal : Nat) (r : Readings κ σ) : Bool × Readings κ σ :=
  (r.back v depth).foldl (fun (done, r) (knot, rows) =>
    if (r.knot knot).state != goal then (done, r)
    else
      let w := r.heads.length
      let r := r.branch v knot
      let earlier := (r.knot knot).threads.findSome? fun t =>
        t.tree.bind fun e => if e.isError then some (t.knot, e) else none
      let trees := rows.head?.getD []
      let (r, trees) := match earlier with
        | some (before, e) =>
            (r.editHead w fun h => { h with knot := before }, e.children ++ trees)
        | none => (r, trees)
      let (trees, extras) := Tree.splitExtras trees
      let r := if trees.isEmpty then r
        else r.push w (some { Tree.error (r.top w).place trees with extra := true }) goal
      (true, r.pushAll w extras goal)) (false, r)

/-- Try the states that a reading was in before its error, the latest first, until one of them can
go on with the next token. -/
def tryLandmarks (p : Parser κ σ) (v : Nat) (next : Tree κ σ) (known count cost : Nat) :
    List Landmark → Readings κ σ → Bool × Readings κ σ
  | [], r => (false, r)
  | m :: rest, r =>
      let here := (r.top v).place
      let taken := (List.range known).any fun w =>
        (r.top w).state == m.state && (r.top w).place.bytes == here.bytes
      if m.state == lost || m.place.bytes == here.bytes || taken then
        tryLandmarks p v next known count cost rest r
      else
        let price := cost + m.depth * Cost.tree + (here.bytes - m.place.bytes) * Cost.byte +
          (here.lines - m.place.lines) * Cost.line
        let (hopeless, r) := r.isHopeless v price
        if hopeless then (false, r)
        else if (p.automaton.choice? m.state next.reading).isSome then
          let depth := if 0 < count then m.depth + 1 else m.depth
          let (done, r) := resume v depth m.state r
          if done then (true, r) else tryLandmarks p v next known count cost rest r
        else tryLandmarks p v next known count cost rest r

/-- Pass over the next token in a reading that is in error. -/
def passOver (v : Nat) (next : Tree κ σ) (count : Nat) (r : Readings κ σ) : Readings κ σ :=
  let here := (r.top v).place
  let alone := Tree.passed here [next]
  let (r, tree) :=
    if 0 < count then
      match r.back v 1 with
      | (knot, rows) :: _ =>
          let w := r.heads.length
          ((r.branch v knot).replace w v, Tree.passed here ((rows.head?.getD []) ++ [alone]))
      | [] => (r, alone)
    else (r, alone)
  let r := r.push v (some tree) lost
  r.editHead v fun h => { h with memory := next.memory.or h.memory }

/-- Let a reading in error go on: from a state that it was in before, or behind the next token, or
both. At the end of the text it is taken as it is. -/
def recover (p : Parser κ σ) (v : Nat) (next : Tree κ σ) (r : Readings κ σ) : Readings κ σ :=
  let known := r.heads.length
  let r := r.rebase v
  let count := r.countSinceError v
  let cost := r.cost v
  let (resumed, r) :=
    if next.isError then (false, r)
    else p.tryLandmarks v next known count cost ((r.head v).landmarks.getD []) r
  if next.reading == .token 0 then
    accept v next (r.push v (some (.error (r.top v).place [])) start)
  else if resumed && (headLimit < r.heads.length || next.turned) then r.halt v
  else
    let price := cost + Cost.tree + (next.stop.bytes - (r.top v).place.bytes) * Cost.byte +
      (next.stop.lines - next.start.lines) * Cost.line
    let (hopeless, r) := r.isHopeless v price
    if hopeless then r.halt v else passOver v next count r

/-- Try each token, in their order, as one that stands before the next token although it does not in
the text. Tells whether one was found with which a reading goes on. -/
def tryMissing (p : Parser κ σ) (v : Nat) (next : Tree κ σ) :
    List Nat → Readings κ σ → Bool × Readings κ σ
  | [], r => (false, r)
  | t :: rest, r =>
      let state := (r.top v).state
      let after := p.automaton.after state (.token t)
      let fits := after != lost && after != state &&
        ((p.automaton.choice? after next.reading).bind Choice.build).isSome
      if fits then
        let w := r.heads.length
        let here := (r.top v).place
        let r := (r.copy v).push w (some { p.leaf t here here with missing := true }) after
        let (done, r) := p.buildAllAt w (some next.reading) r
        if done then (true, r) else tryMissing p v next rest r
      else tryMissing p v next rest r

def handleError (p : Parser κ σ) (v : Nat) (next : Tree κ σ) (r : Readings κ σ) : Readings κ σ :=
  let known := r.heads.length
  let (_, r) := p.buildAllAt v none r
  let count := r.heads.length
  let tokens := (List.range p.automaton.tokenCount).drop 1
  let all := v :: (List.range count).drop known
  let (_, r) := all.foldl (fun (done, r) w =>
    let (done, r) := if done then (true, r) else p.tryMissing w next tokens r
    (done, r.push w none lost)) (false, r)
  let r := Nat.repeat (fun r => (r.merge? v known).2) (count - known) r
  let landmarks := r.landmarks v
  p.recover v next (r.editHead v fun h => { h with landmarks := some landmarks })

/-! ## Going on -/

/-- Do what is to be done before a token, and read it, by recursion on an amount that exceeds the
parts built before it. -/
def takeToken (p : Parser κ σ) (v : Nat) (next : Tree κ σ) : Nat → Readings κ σ → Readings κ σ
  | 0, r => r.halt v
  | fuel + 1, r =>
      let state := (r.top v).state
      if state == lost then p.recover v next r
      else
        match p.automaton.choice? state next.reading with
        | none => r.editHead v fun h => { h with status := .paused next }
        | some c =>
            let (built, r) := match c.build with
              | some b => p.build v b r
              | none => (none, r)
            if c.accepts then accept v next r
            else
              match c.shift, built with
              | some after, _ =>
                  (r.push v (some next) after).editHead v fun h =>
                    { h with memory := next.memory.or h.memory }
              | none, some w => takeToken p v next fuel (r.replace w v)
              | none, none => r.halt v

def advance (p : Parser κ σ) (v : Nat) (r : Readings κ σ) : Readings κ σ :=
  p.takeToken v (p.nextToken r v) (2 * r.knots.size + 1000) r

/-- Go on with each reading until it is ahead of those before it, by recursion on an amount that
exceeds the number of tokens; `reached` is how far the reading before got. -/
def advanceAll (p : Parser κ σ) : Nat → Nat → Nat → Readings κ σ → Nat × Readings κ σ
  | 0, _, reached, r => (reached, r)
  | fuel + 1, v, reached, r =>
      if r.heads.length ≤ v then (reached, r)
      else if !(r.head v).isActive then advanceAll p fuel (v + 1) reached r
      else
        let r := p.advance v r
        let place := if v < r.heads.length then (r.top v).place.bytes else 0
        if reached < place || (0 < v && place == reached) then
          advanceAll p fuel (v + 1) place r
        else advanceAll p fuel v reached r

/-- Compare the reading `v` with those before it, from `w` on, and drop those that are worse. Tells
the number of the reading to go on with. -/
def weed : Nat → Nat → Nat → Readings κ σ → Nat × Readings κ σ
  | 0, v, _, r => (v + 1, r)
  | fuel + 1, v, w, r =>
      if v ≤ w then (v + 1, r)
      else
        let r := (r.rebase w).rebase v
        match (r.standing w).compare (r.standing v) with
        | .onlyFirst => (v, r.remove v)
        | .onlySecond => weed fuel (v - 1) w (r.remove w)
        | .second =>
            if r.met w v then (v, r.merge w v)
            else
              let swapped := (r.heads.set w (r.head v)).set v (r.head w)
              weed fuel v (w + 1) { r with heads := swapped }
        | _ => if r.met w v then (v, r.merge w v) else weed fuel v (w + 1) r

/-- Compare all readings from `v` on with those before them. Tells the least cost of one that is not
in error. -/
def weedAll : Nat → Nat → Option Nat → Readings κ σ → Option Nat × Readings κ σ
  | 0, _, least, r => (least, r)
  | fuel + 1, v, least, r =>
      if r.heads.length ≤ v then (least, r)
      else if (r.head v).isHalted then weedAll fuel v least (r.remove v)
      else
        let r := r.rebase v
        let s := r.standing v
        let least := if s.astray then least
          else some (least.elim s.cost (min s.cost))
        let (next, r) := weed fuel v 0 r
        weedAll fuel next least r

/-- More comparisons than there are between the readings at a time. -/
def weedLimit : Nat := 10000

/-- Take up the first reading that waits, unless another one goes on, and drop the other ones that
wait. Goes through a number of readings from `v` on. -/
def wake (p : Parser κ σ) :
    Nat → Nat → Bool → Option Nat → Readings κ σ → Option Nat × Readings κ σ
  | 0, _, _, least, r => (least, r)
  | left + 1, v, awake, least, r =>
      match (r.head v).status with
      | .paused next =>
          if !awake && r.found < headLimit then
            let least := some (r.cost v)
            let r := r.editHead v fun h => { h with status := .active }
            wake p left (v + 1) true least (p.handleError v next r)
          else wake p left v awake least (r.remove v)
      | _ => wake p left (v + 1) true least r

/-- Drop readings that are worse than others, and take up one that waits if none goes on. Tells the
least cost of a reading. -/
def condense (p : Parser κ σ) (r : Readings κ σ) : Option Nat × Readings κ σ :=
  let (least, r) := weedAll weedLimit 0 none r
  let r := { r with heads := r.heads.take headLimit }
  p.wake r.heads.length 0 false least r

/-- Read on until a tree is found that no reading can beat, by recursion on an amount that exceeds
the number of rounds. -/
def run (p : Parser κ σ) (limit : Nat) : Nat → Nat → Readings κ σ → Option (Tree κ σ)
  | 0, _, r => r.finished
  | fuel + 1, reached, r =>
      if r.heads.isEmpty then r.finished
      else
        let (reached, r) := p.advanceAll limit 0 reached r
        let (least, r) := p.condense r
        match r.finished, least with
        | some t, some cost => if t.price < cost then some t else run p limit fuel reached r
        | some t, none => some t
        | none, _ => run p limit fuel reached r

def parse (p : Parser κ σ) (text : List Char) : Option (Tree κ σ) :=
  let limit := 1000 * (text.length + 10)
  p.run limit limit 0 (.before (.before text))

end Parser

end Concordance.Grammar
