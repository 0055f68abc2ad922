/-! # Rules

What the parts of a text may be made of: tokens and other parts, one after the
other, in choice, or repeated. A rule stands for a list of phrases, each of them a
plain row of steps; a repetition becomes a part of its own, named by what it repeats.
-/

namespace Concordance.Grammar

/-- What may stand for a part of a text, over tokens `τ`, parts `π` and labels `κ`. -/
inductive Rule (τ π κ : Type) where
  | nothing
  | token (t : τ)
  | part (p : π)
  /-- One rule, then another. -/
  | both (first second : Rule τ π κ)
  | either (one other : Rule τ π κ)
  /-- A rule, one or more times. -/
  | many (r : Rule τ π κ)
  /-- A rule whose parts bear a label where they stand. -/
  | labelled (label : κ) (r : Rule τ π κ)
  /-- A rule that is preferred by a weight to others for the same text. -/
  | weighing (weight : Nat) (r : Rule τ π κ)
  deriving DecidableEq

/-- What a step of a phrase reads. -/
inductive Symbol (τ π κ : Type) where
  | token (t : τ)
  | part (p : π)
  /-- A repetition of a rule, one or more times. -/
  | run (r : Rule τ π κ)
  deriving DecidableEq

/-- A place in a phrase. -/
structure PhraseStep (τ π κ : Type) where
  symbol : Symbol τ π κ
  label : Option κ
  deriving DecidableEq

/-- A row of steps that together make up a part. -/
structure Phrase (τ π κ : Type) where
  /-- How much it is preferred. -/
  weight : Nat
  steps : List (PhraseStep τ π κ)
  deriving DecidableEq

namespace Phrase

variable {τ π κ : Type}

def single (s : Symbol τ π κ) : Phrase τ π κ := ⟨0, [⟨s, none⟩]⟩

def append (a b : Phrase τ π κ) : Phrase τ π κ :=
  ⟨max a.weight b.weight, a.steps ++ b.steps⟩

/-- Give a label to the steps that have none. -/
def label (l : κ) (a : Phrase τ π κ) : Phrase τ π κ :=
  { a with steps := a.steps.map fun s => { s with label := s.label.or (some l) } }

def weigh (weight : Nat) (a : Phrase τ π κ) : Phrase τ π κ :=
  { a with weight := max weight a.weight }

end Phrase

namespace Rule

variable {τ π κ : Type}

/-- Rules one after the other. -/
def seq (rules : List (Rule τ π κ)) : Rule τ π κ :=
  match rules with
  | [] => nothing
  | [r] => r
  | r :: rest => both r (seq rest)

def oneOf (rules : List (Rule τ π κ)) : Rule τ π κ :=
  match rules with
  | [] => nothing
  | [r] => r
  | r :: rest => either r (oneOf rest)

def optional (r : Rule τ π κ) : Rule τ π κ := either r nothing

/-- A rule, any number of times. -/
def any (r : Rule τ π κ) : Rule τ π κ := optional (many r)

def phrases : Rule τ π κ → List (Phrase τ π κ)
  | nothing => [⟨0, []⟩]
  | token t => [.single (.token t)]
  | part p => [.single (.part p)]
  | both a b => a.phrases.flatMap fun x => b.phrases.map x.append
  | either a b => a.phrases ++ b.phrases
  | many r => [.single (.run r)]
  | labelled l r => r.phrases.map (.label l)
  | weighing w r => r.phrases.map (.weigh w)

/-- The rules that are repeated within a rule, inner ones first. -/
def repeated : Rule τ π κ → List (Rule τ π κ)
  | nothing => []
  | token _ => []
  | part _ => []
  | both a b => a.repeated ++ b.repeated
  | either a b => a.repeated ++ b.repeated
  | many r => r.repeated ++ [r]
  | labelled _ r => r.repeated
  | weighing _ r => r.repeated

end Rule

/-- The structure of a kind of text. -/
structure Rulebook (τ π κ : Type) where
  /-- The number of a token. Zero is the end of the text. -/
  tokenNumber : τ → Nat
  /-- The label of a token that bears one everywhere. -/
  tokenLabel : τ → Option κ
  /-- The tokens in the order of their numbers. -/
  tokens : List τ
  /-- The parts and what they are made of. The first is the whole text. -/
  parts : List (π × Rule τ π κ)
  /-- The label of a part that bears one everywhere. -/
  partLabel : π → Option κ
  /-- Pairs of a part and another that goes on with what the first ends with, where both readings
  are tried. Between all others, what goes on is preferred. -/
  rivals : List (Symbol τ π κ × Symbol τ π κ)

namespace Rulebook

variable {τ π κ : Type} [DecidableEq τ] [DecidableEq π] [DecidableEq κ]

/-- The rules that are repeated somewhere. -/
def runs (g : Rulebook τ π κ) : List (Rule τ π κ) :=
  (g.parts.flatMap fun p => p.2.repeated).eraseDups

/-- The phrases of each part, then those of each repetition, which is built from the left. -/
def phraseTable (g : Rulebook τ π κ) : List (Symbol τ π κ × List (Phrase τ π κ)) :=
  g.parts.map (fun p => (.part p.1, p.2.phrases.eraseDups)) ++
  g.runs.map fun r =>
    (.run r, (r.phrases.map (Phrase.append (.single (.run r))) ++ r.phrases).eraseDups)

end Rulebook

end Concordance.Grammar
