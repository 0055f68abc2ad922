import Concordance.Markdown.Margin

/-! # Tables

A table begins with a row of cells over a line that rules off as many columns. Both
lines are looked at before it is taken for one.
-/

namespace Concordance.Markdown

namespace Scan

/-- Count the bars of a row, at most as many characters as there are in a list. `last` tells whether
the last character but gaps is a bar, and `escaping` whether a backslash stands before the next.
Tells the number, `last`, and the place after the row. -/
def barsOf : List Char → Nat → Bool → Bool → Scan → Nat × Bool × Scan
  | [], count, last, _, s => (count, last, s)
  | c :: rest, count, last, escaping, s =>
      if s.atBreak || s.atEnd then (count, last, s)
      else if escaping && isMark c then barsOf rest count last false s.step
      else if c == '|' then barsOf rest (count + 1) true false s.step
      else barsOf rest count (last && isGap c) (c == '\\') s.step

/-- Count the cells that a line rules off, by recursion on an amount that exceeds their number. -/
def ruledCells : Nat → Nat → Scan → Option (Nat × Scan)
  | 0, _, _ => none
  | fuel + 1, count, s =>
      let s := s.skipGaps
      if s.at? '|' then ruledCells fuel (count + 1) s.step
      else
        let left := s.at? ':'
        let s := if left then s.step else s
        let lined := s.at? '-'
        let s := s.skip (· == '-')
        let right := s.at? ':'
        if (left || right) && !lined then none
        else
          let s := (if right then s.step else s).skipGaps
          if s.at? '|' then ruledCells fuel (count + 1) s.step
          else if s.atBreak then some (if lined then count + 1 else count, s)
          else none

def table? (s : Scan) : Option (Token × Scan) :=
  let s := s.mark
  let opens := s.at? '|'
  let s := if opens then s.step else s
  let (bars, closed, s) := barsOf s.here.rest 0 false false s
  if (bars == 0 && !(opens && closed)) || !s.atBreak then none
  else
    let cells := if closed then bars else bars + 1
    let s := (s.passBreak.edit fun m => { m with indent := 0, column := 0 }).indentOver
    match s.enterFresh with
    | (false, _) => none
    | (true, s) =>
        let s := if s.at? '|' then s.step else s
        match ruledCells (s.here.rest.length + 1) 0 s with
        | some (count, s) => if count == cells then some (.tableStart, s) else none
        | none => none

end Scan

end Concordance.Markdown
