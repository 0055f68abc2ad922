import Concordance.Markdown.Html
import Concordance.Markdown.Marks
import Concordance.Markdown.Table

/-! # Finding structural tokens

At every place of a document it is decided whether a block begins, goes on or ends
there, and whether a line end ends what stands before it. A line that could begin a
block that interrupts a paragraph ends it; any other line goes on with it.
-/

namespace Concordance.Markdown

open Grammar (Place)

/-- The tokens that end a paragraph on the line before. -/
def interrupts : Token → Bool
  | .quoteMark => true
  | .heading1 => true
  | .heading2 => true
  | .heading3 => true
  | .heading4 => true
  | .heading5 => true
  | .heading6 => true
  | .underline1 => true
  | .underline2 => true
  | .divider => true
  | .minusItem => true
  | .plusItem => true
  | .starItem => true
  | .parenthesisItem => true
  | .dotItem => true
  | .backtickOpen => true
  | .tildeOpen => true
  | .blankStart => true
  | .rawOpen => true
  | .commentOpen => true
  | .instructionOpen => true
  | .declarationOpen => true
  | .charDataOpen => true
  | .elementOpen => true
  | .tableStart => true
  | _ => false

namespace Scan

/-- The start of a block where the marks of all open blocks were read and no gap follows. -/
def opening? (valid : Token → Bool) (s : Scan) : Option (Token × Scan) :=
  let table := if valid .tableStart then s.table? else none
  match s.char? with
  | none => table
  | some c =>
      match c with
      | '\n' => if valid .blankStart then some (.blankStart, s) else none
      | '\r' => if valid .blankStart then some (.blankStart, s) else none
      | '\x60' => s.fence? .backtick valid
      | '~' => s.fence? .tilde valid
      | '*' => s.star? valid
      | '_' => s.lowLine? valid
      | '>' => s.quote? valid
      | '#' => s.heading? valid
      | '=' => s.underline? valid
      | '+' => s.plus? valid
      | '-' => s.minus? valid
      | '<' => s.html? valid
      | c => if c.isDigit then s.number? valid else table

/-- Read the marks of open blocks at the start of a line, as far as they are there and the innermost
block does not end with the line before. Tells whether there were any. -/
def enterLine : List OpenBlock → Bool → Scan → Bool × Scan
  | [], any, s => (any, s)
  | b :: rest, any, s =>
      if rest.isEmpty && s.margin.closing then
        (any, if any then s else s.edit fun m => { m with closing := false })
      else
        match s.enter b with
        | (true, s) => enterLine rest true (s.edit fun m => { m with matched := m.matched + 1 })
        | (false, s) =>
            (any, if s.margin.soft then s.edit fun m => { m with entering := false } else s)

/-- Stop reading marks of open blocks once all have been read. -/
def settle (s : Scan) : Scan :=
  if s.margin.isEntered then s.edit fun m => { m with entering := false } else s

/-- A token before the end of a line. Where there is none, what was found out on the way is kept. -/
def inLine (valid : Token → Bool) (s : Scan) : Option Token × Scan :=
  if s.margin.entering then
    let (any, s) := enterLine (s.margin.blocks.drop s.margin.matched) false s
    if any then (some .continuation, s.settle)
    else if !s.margin.soft then (some .blockEnd, s.closeBlock.settle)
    else (none, s)
  else
    let s := s.indentOver
    if valid .codeIndent && !valid .noCode && 4 ≤ s.margin.indent && !s.atBreak
        && s.margin.hasRoom then
      (some .codeIndent, (s.openBlock .indented).useIndent 4)
    else
      match s.opening? valid with
      | some (token, s) => (some token, s)
      | none => (none, s)

/-- Forget the position on the line. -/
def atLineStart (s : Scan) : Scan := s.edit fun m => { m with indent := 0, column := 0 }

/-- The end of a line that what stands on it goes beyond, from behind it, if the next line does not
begin a block that ends it. -/
def softEnd? (valid : Token → Bool) (s : Scan) : Option Token × Scan :=
  let matched := s.margin.matched
  let (all, t) := (s.mark.indentOver).enterFresh
  let any := 0 < t.margin.matched
  let (begun, t) :=
    if t.atEnd then (true, t)
    else
      let (found, t) := ({ t with trial := true } : Scan).inLine interrupts
      (found.isSome, t)
  let t := t.atLineStart
  if begun then (none, t.edit fun m => { m with matched })
  else
    let t := t.edit fun m => { m with matched := 0, entering := any }
    if valid .tableLineEnd then (if all then some .tableLineEnd else none, t)
    else (some .softLineEnd, t.edit fun m => { m with soft := true })

def lineEnd (valid : Token → Bool) (s : Scan) : Option Token × Scan :=
  let wanted : List Token := [.lineEnd, .softLineEnd, .tableLineEnd]
  if !wanted.any valid || !s.atBreak then (none, s)
  else
    let s := s.passBreak.atLineStart
    let soft := !s.margin.closing && (valid .softLineEnd || valid .tableLineEnd)
    match (if soft then s.softEnd? valid else (none, s)) with
    | (some token, s) => (some token, s)
    | (none, s) =>
        if valid .lineEnd then
          (some .lineEnd, s.edit fun m =>
            { m with matched := 0, entering := !m.blocks.isEmpty, soft := false })
        else (none, s)

def token (valid : Token → Bool) (s : Scan) : Option Token × Scan :=
  if valid .demand then (some .misfit, s)
  else if valid .closing then (some .closing, s.edit fun m => { m with closing := true })
  else if s.atEnd then
    if valid .finalEnd then (some .finalEnd, s)
    else if s.margin.blocks.isEmpty then (none, s)
    else (some .blockEnd, s.closeBlock)
  else
    match s.inLine valid with
    | (some token, s) => (some token, s)
    | (none, s) => s.lineEnd valid

end Scan

/-- The structural token at a place, its end, and what is known of the open blocks after it. -/
def structuralToken (margin : Margin) (valid : Token → Bool) (here : Place) :
    Option (Token × Place × Margin) :=
  let s : Scan := { margin, here }
  match s.token valid with
  | (some token, t) => some (token, t.stop.getD t.here, t.margin)
  | (none, _) => none

end Concordance.Markdown
