import Concordance.Markup.Basic

/-! # Spans of running text

Text is cut into marked spans, the four written forms of links and code, and the
plain stretches between them. Put together again, the spans are the text.
-/

namespace Concordance

/-- A marked span: a form of link or code, with the parts it captures. -/
inductive Mark where
  /-- A symbol between double backticks. -/
  | symbol (name : List Char)
  /-- A topic link between angle brackets. -/
  | topic (link : List Char)
  /-- A text in square brackets before a destination in parentheses. -/
  | bracket (text destination : List Char)
  /-- Code between backticks. -/
  | code (text : List Char)
  deriving Repr, DecidableEq

namespace Mark

def tick : Char := '\x60'

def source : Mark → List Char
  | symbol name => tick :: tick :: (name ++ [tick, tick])
  | topic link => '<' :: (link ++ ['>'])
  | bracket text destination => '[' :: (text ++ (']' :: '(' :: (destination ++ [')'])))
  | code text => tick :: (text ++ [tick])

/-- The characters up to the first that ends them, if there are any, and what follows. -/
def upTo? (ends : Char → Bool) (s : List Char) : Option (List Char × List Char) :=
  match s.span fun c => !ends c with
  | ([], _) => none
  | found => some found

def symbolAt? (s : List Char) : Option Mark := do
  let body ← Text.stripStart? [tick, tick] s
  let (name, rest) ← upTo? (· == tick) body
  let _ ← Text.stripStart? [tick, tick] rest
  return symbol name

def topicAt? (s : List Char) : Option Mark := do
  let body ← Text.stripStart? ['<'] s
  let target ← Text.stripStart? "doc:".toList body
  let (link, rest) ← upTo? (fun c => c == '>' || Text.isBlank c) target
  let _ ← Text.stripStart? ['>'] rest
  return topic ("doc:".toList ++ link)

/-- A link with a text of its own at the start of a text. -/
def bracketAt? (s : List Char) : Option Mark := do
  let body ← Text.stripStart? ['['] s
  let (text, rest) ← upTo? (· == ']') body
  let target ← Text.stripStart? [']', '('] rest
  let (destination, rest) ← upTo? (fun c => c == ')' || Text.isBlank c) target
  let _ ← Text.stripStart? [')'] rest
  return bracket text destination

def codeAt? (s : List Char) : Option Mark := do
  let body ← Text.stripStart? [tick] s
  let (text, rest) ← upTo? (· == tick) body
  let _ ← Text.stripStart? [tick] rest
  return code text

/-- The span that a text starts with, the forms tried in order. -/
def at? (s : List Char) : Option Mark :=
  (symbolAt? s).or ((topicAt? s).or ((bracketAt? s).or (codeAt? s)))

end Mark

inductive Span where
  /-- A stretch in which no form matches anywhere. -/
  | plain (text : List Char)
  | marked (mark : Mark)
  deriving Repr, DecidableEq

namespace Span

def source : Span → List Char
  | plain text => text
  | marked mark => mark.source

/-- Put a character before a sequence of spans, in the plain stretch it starts with. -/
def consPlain (c : Char) : List Span → List Span
  | plain text :: rest => plain (c :: text) :: rest
  | rest => plain [c] :: rest

/-- Cut a text into spans, each the leftmost that matches. -/
def cut (s : List Char) : List Span :=
  match s with
  | [] => []
  | c :: rest =>
      match Mark.at? (c :: rest) with
      | some mark => marked mark :: cut (rest.drop (mark.source.length - 1))
      | none => consPlain c (cut rest)
termination_by s.length
decreasing_by
  · simp only [List.length_drop, List.length_cons]; omega
  · simp

end Span

namespace Inline

/-- The element that a marked span stands for. What cannot be read as a link stays as text. -/
def ofMark : Mark → Inline
  | .symbol name =>
      match WrittenLink.parse (String.ofList name) with
      | .ok l => link (.written l)
      | .error _ => code (String.ofList name)
  | .topic target =>
      match WrittenLink.parse (String.ofList target) with
      | .ok l => link (.written l)
      | .error _ => text (String.ofList target)
  | .bracket title destination =>
      let title := String.ofList title
      match WrittenLink.parse (String.ofList destination) with
      | .ok l =>
          if l.isUrl then link { destination := .url l.text, title := some title }
          else link (.written l (some title))
      | .error _ => text title
  | .code body => code (String.ofList body)

def ofSpan : Span → Inline
  | .plain body => text (String.ofList body)
  | .marked mark => ofMark mark

end Inline

/-- Read running text. -/
def Inlines.ofText (s : String) : Inlines :=
  (Span.cut s.toList).map Inline.ofSpan

end Concordance
