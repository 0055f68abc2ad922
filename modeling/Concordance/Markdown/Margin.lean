import Concordance.Grammar.Place
import Concordance.Markdown.Token
import Concordance.Text.Blank

/-! # The margin of a document

Every line of a document begins with marks and indentation for the blocks that are
open on it. What is known of these blocks goes along the document: which blocks are
open, how many of them the line at hand has marks for, and how much indentation is
not used up. Columns are counted modulo 256, and no more blocks can be open than fit
a fixed amount of memory.
-/

namespace Concordance.Markdown

open Grammar (Place)

/-- A space or a tab. -/
def isGap (c : Char) : Bool := c == ' ' || c == '\t'

def isBreak (c : Char) : Bool := c == '\n' || c == '\r'

/-- Punctuation of ASCII. -/
def isMark (c : Char) : Bool :=
  let n := c.toNat
  (33 ≤ n && n ≤ 47) || (58 ≤ n && n ≤ 64) || (91 ≤ n && n ≤ 96) || (123 ≤ n && n ≤ 126)

inductive OpenBlock where
  | quote
  | indented
  | fenced
  | html
  /-- A list item whose content is indented by a number of columns. -/
  | item (columns : Nat)
  deriving Repr, DecidableEq

/-- What is known of the open blocks. -/
structure Margin where
  /-- The open blocks, outermost first. -/
  blocks : List OpenBlock := []
  /-- Whether the marks of open blocks are still to be read on this line. -/
  entering : Bool := false
  /-- Whether the line before ended within a paragraph. -/
  soft : Bool := false
  /-- Whether the innermost block ends with this line. -/
  closing : Bool := false
  /-- How many open blocks this line has marks for. -/
  matched : Nat := 0
  /-- Columns of indentation that no block uses up. -/
  indent : Nat := 0
  /-- The column on the line, modulo four. -/
  column : Nat := 0
  /-- The length of the last opening fence. -/
  fence : Nat := 0
  deriving Repr, DecidableEq

def openLimit : Nat := 254

namespace Margin

/-- Whether the line has marks for all open blocks. -/
def isEntered (m : Margin) : Bool := m.matched == m.blocks.length

/-- Whether a block can be opened. -/
def hasRoom (m : Margin) : Bool := m.blocks.length < openLimit

end Margin

structure Scan where
  margin : Margin
  here : Place
  /-- The end of the token, if it lies before that. -/
  stop : Option Place := none
  /-- Whether it is only asked if there is a token; this opens and closes no block. -/
  trial : Bool := false

namespace Scan

def char? (s : Scan) : Option Char := s.here.rest.head?

def atEnd (s : Scan) : Bool := s.here.rest.isEmpty

def at? (s : Scan) (c : Char) : Bool := s.char? == some c

def atGap (s : Scan) : Bool := s.char?.any isGap

def atBreak (s : Scan) : Bool := s.char?.any isBreak

/-- Change what is known of the open blocks. -/
def edit (s : Scan) (f : Margin → Margin) : Scan := { s with margin := f s.margin }

/-- The columns that the next character takes. -/
def width (s : Scan) : Nat := if s.at? '\t' then 4 - s.margin.column else 1

def step (s : Scan) : Scan :=
  let column := if s.at? '\t' then 0 else (s.margin.column + 1) % 4
  { s with here := s.here.next, margin := { s.margin with column } }

/-- Go past characters as long as they are of a kind, at most as many as there are in a list. Tells
the columns they take beyond the given ones. -/
def passOf (p : Char → Bool) : List Char → Nat → Scan → Nat × Scan
  | [], columns, s => (columns, s)
  | _ :: rest, columns, s =>
      if s.char?.any p then passOf p rest (columns + s.width) s.step else (columns, s)

/-- Go past characters as long as they are of a kind. Tells the columns they take. -/
def pass (p : Char → Bool) (s : Scan) : Nat × Scan := passOf p s.here.rest 0 s

def skip (p : Char → Bool) (s : Scan) : Scan := (s.pass p).2

/-- Go past gaps. Tells their columns. -/
def passGaps (s : Scan) : Nat × Scan := s.pass isGap

def skipGaps (s : Scan) : Scan := s.skip isGap

def indentBy (columns : Nat) (s : Scan) : Scan :=
  s.edit fun m => { m with indent := (m.indent + columns) % 256 }

/-- Go past gaps as indentation. -/
def indentOver (s : Scan) : Scan :=
  let (columns, s) := s.passGaps
  s.indentBy columns

/-- Go past gaps as indentation until there is enough of it, at most as many gaps as there are
characters in a list. -/
def indentUpToOf (columns : Nat) : List Char → Scan → Scan
  | [], s => s
  | _ :: rest, s =>
      if s.margin.indent < columns && s.atGap then
        indentUpToOf columns rest (s.step.indentBy s.width)
      else s

/-- Go past gaps as indentation until there is enough of it. -/
def indentUpTo (columns : Nat) (s : Scan) : Scan := indentUpToOf columns s.here.rest s

/-- Take all indentation as used up. -/
def clearIndent (s : Scan) : Scan := s.edit fun m => { m with indent := 0 }

/-- Go to the start of the next line from the end of a line. -/
def passBreak (s : Scan) : Scan :=
  if s.at? '\r' then
    let s := s.step
    if s.at? '\n' then s.step else s
  else s.step

def mark (s : Scan) : Scan := if s.trial then s else { s with stop := some s.here }

def openBlock (b : OpenBlock) (s : Scan) : Scan :=
  if s.trial then s else s.edit fun m => { m with blocks := m.blocks ++ [b] }

def closeBlock (s : Scan) : Scan := s.edit fun m => { m with blocks := m.blocks.dropLast }

def useIndent (columns : Nat) (s : Scan) : Scan :=
  s.edit fun m => { m with indent := m.indent - columns }

/-- Read the mark of an open block. Tells whether it is there. -/
def enter (s : Scan) : OpenBlock → Bool × Scan
  | .indented =>
      let s := s.indentUpTo 4
      if 4 ≤ s.margin.indent && !s.atBreak then (true, s.useIndent 4) else (false, s)
  | .item columns =>
      let s := s.indentUpTo columns
      if columns ≤ s.margin.indent then (true, s.useIndent columns)
      else if s.atBreak then (true, s.clearIndent)
      else (false, s)
  | .quote =>
      let s := s.indentOver
      if s.at? '>' then
        let s := s.step.clearIndent
        (true, if s.atGap then s.step.indentBy (s.width - 1) else s)
      else (false, s)
  | .fenced => (true, s)
  | .html => (true, s)

/-- Read the marks of open blocks as far as they are there. Tells whether all of them are. -/
def enterAll : List OpenBlock → Scan → Bool × Scan
  | [], s => (true, s)
  | b :: rest, s =>
      match s.enter b with
      | (true, s) => enterAll rest (s.edit fun m => { m with matched := m.matched + 1 })
      | (false, s) => (false, s)

/-- Read the marks of all open blocks on a new line. -/
def enterFresh (s : Scan) : Bool × Scan :=
  enterAll s.margin.blocks (s.edit fun m => { m with matched := 0 })

end Scan

end Concordance.Markdown
