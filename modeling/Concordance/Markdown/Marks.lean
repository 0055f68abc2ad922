import Concordance.Markdown.Margin

/-! # Marks of blocks

The marks that blocks begin with: number signs and underlines of headings, dividing
lines, fences of code, quote marks, and the marks of list items. Each is looked for
where its first character stands.
-/

namespace Concordance.Markdown

open Grammar (Place)

namespace Scan

/-! ## Headings -/

/-- The mark of a heading: up to six number signs before a gap or a line end. -/
def heading? (valid : Token → Bool) (s : Scan) : Option (Token × Scan) :=
  if valid .heading1 && s.margin.indent ≤ 3 then
    let signs := (s.here.rest.take 7).takeWhile (· == '#')
    let s := signs.foldl (fun s _ => s.step) s.mark
    if signs.length ≤ 6 && (s.atGap || s.atBreak) then
      some (.heading signs.length, s.clearIndent.mark)
    else none
  else none

/-- A line of equals signs under a paragraph. -/
def underline? (valid : Token → Bool) (s : Scan) : Option (Token × Scan) :=
  if valid .underline1 && s.margin.isEntered then
    let s := (s.mark.skip (· == '=')).skipGaps
    if s.atBreak then some (.underline1, s.mark) else none
  else none

/-! ## Fences -/

def fenceChar : FenceMark → Char
  | .backtick => '\x60'
  | .tilde => '~'

/-- A fence. It closes code if it is no shorter than the fence that opened it and nothing follows
it; what follows an opening fence of backticks holds none. -/
def fence? (fence : FenceMark) (valid : Token → Bool) (s : Scan) : Option (Token × Scan) :=
  let c := fenceChar fence
  let (length, s) := s.pass (· == c)
  let level := length % 256
  let s := s.mark
  let close := valid (.fenceClose fence) && s.margin.indent < 4 && s.margin.fence ≤ level
  let s := if close then s.skipGaps else s
  if close && (s.atBreak || s.atEnd) then
    some (.fenceClose fence, s.edit fun m => { m with fence := 0 })
  else if valid (.fenceOpen fence) && 3 ≤ level && s.margin.hasRoom then
    let s := if fence == .backtick then s.skip fun d => !isBreak d && d != c else s
    if fence == .backtick && s.at? c then none
    else
      some (.fenceOpen fence,
        (s.openBlock .fenced).edit fun m => { m with fence := level, indent := 0 })
  else none

/-! ## Block quotes -/

def quote? (valid : Token → Bool) (s : Scan) : Option (Token × Scan) :=
  if valid .quoteMark && s.margin.hasRoom then
    let s := s.step.clearIndent
    let s := if s.atGap then s.step.indentBy (s.width - 1) else s
    some (.quoteMark, s.openBlock .quote)
  else none

/-! ## Rows of a character -/

/-- A row of one character with gaps between. -/
structure Row where
  /-- How often the character stands there. -/
  count : Nat
  /-- The columns of the gap after the first. -/
  extra : Nat
  /-- Whether a gap stands before the last. -/
  spaced : Bool
  /-- Whether a gap stands anywhere. -/
  gapped : Bool
  /-- The place after the gap after the first, if another one follows. -/
  second : Option Place
  after : Scan

/-- Read on in a row, at most as many characters as there are in a list. -/
def rowOf (c : Char) : List Char → Row → Row
  | [], row => row
  | _ :: rest, row =>
      let s := row.after
      if s.at? c then
        let second := if row.count == 1 && 1 ≤ row.extra then some s.here else row.second
        rowOf c rest
          { row with count := row.count + 1, spaced := row.gapped, second, after := s.step }
      else if s.atGap then
        let extra := if row.count == 1 then (row.extra + s.width) % 256 else row.extra
        rowOf c rest { row with extra, gapped := true, after := s.step }
      else row

def row (c : Char) (s : Scan) : Row :=
  rowOf c s.here.rest ⟨0, 0, false, false, none, s⟩

/-- End the token before the second character of a row, if there is one. -/
def markSecond (row : Row) (s : Scan) : Scan :=
  match row.second with
  | some place => if s.trial then s else { s with stop := some place }
  | none => s

/-- A dividing line of underscores. -/
def lowLine? (valid : Token → Bool) (s : Scan) : Option (Token × Scan) :=
  let row := s.row '_'
  if 3 ≤ row.count && row.after.atBreak && valid .divider then
    some (.divider, row.after.mark.clearIndent)
  else none

/-! ## List items -/

/-- Open a list item, whose mark has a number of digits and a gap of the given columns after it. Of
a wide gap only one column belongs to the mark. -/
def openItem (extra digits : Nat) (s : Scan) : Scan :=
  let extra := extra - 1
  let indent := s.margin.indent
  let (offset, indent) := if extra ≤ 3 then ((extra + indent) % 256, 0) else (indent, extra)
  (s.edit fun m => { m with indent }).openBlock (.item ((2 + offset + digits) % 256))

/-- The mark of a list item after it was read. Where nothing follows it, it cannot end a
paragraph, which the line then goes on. -/
def item? (mark : ListMark) (apart : Bool) (extra digits : Nat) (valid : Token → Bool)
    (s : Scan) : Option (Token × Scan) :=
  if valid (.item apart mark) && 1 ≤ extra && s.margin.hasRoom then
    some (.item (apart && digits == 0) mark, s.openItem extra digits)
  else none

/-- A dividing line of asterisks or the mark of a list item. -/
def star? (valid : Token → Bool) (s : Scan) : Option (Token × Scan) :=
  let first := s.step.mark
  let row := rowOf '*' first.here.rest ⟨1, 0, false, false, none, first⟩
  let s := if valid .starItem then markSecond row row.after else row.after
  let bare := row.count == 1 && s.atBreak
  let extra := if bare then 1 else row.extra
  if valid .divider && 3 ≤ row.count && s.atBreak && s.margin.indent < 4 then
    some (.divider, s.mark.clearIndent)
  else
    let s := if row.count == 1 then s.mark else s
    s.item? .star (bare && s.margin.isEntered) extra 0 valid

/-- Go past front matter from the end of its first line, by recursion on an amount that exceeds the
lines that are left. -/
def frontMatter? (c : Char) (token : Token) : Nat → Scan → Option (Token × Scan)
  | 0, _ => none
  | fuel + 1, s =>
      let (count, s) := s.passBreak.pass (· == c)
      let ends := s.skipGaps
      if count == 3 && ends.atBreak then some (token, ends.passBreak.mark)
      else
        let s := (if count == 3 then ends else s).skip fun d => !isBreak d
        if s.atEnd then none else frontMatter? c token fuel s

/-- The mark of a list item or the start of front matter. -/
def plus? (valid : Token → Bool) (s : Scan) : Option (Token × Scan) :=
  if 3 < s.margin.indent || !(valid .plusItem || valid .plusItemApart || valid .plusFront) then none
  else
    let s := s.step
    if valid .plusFront && s.at? '+' then
      if s.step.at? '+' then
        let s := s.step.step.skipGaps
        if s.atBreak then frontMatter? '+' .plusFront s.here.rest.length s else none
      else none
    else
      let (columns, s) := s.passGaps
      let extra := if s.atBreak then 1 else columns % 256
      s.item? .plus (s.atBreak && s.margin.isEntered) extra 0 valid

/-- The mark of a numbered list item. -/
def number? (valid : Token → Bool) (s : Scan) : Option (Token × Scan) :=
  let wanted : List Token := [.parenthesisItem, .dotItem, .parenthesisItemApart, .dotItemApart]
  if 3 < s.margin.indent || !wanted.any valid then none
  else
    let (digits, s) := s.pass Char.isDigit
    let mark? : Option ListMark :=
      if s.at? '.' then some .dot else if s.at? ')' then some .parenthesis else none
    match mark? with
    | none => none
    | some mark =>
        let (columns, s) := s.step.passGaps
        let apart := (2 ≤ digits || s.atBreak) && s.margin.isEntered
        let extra := if s.atBreak then 1 else columns % 256
        if digits ≤ 9 then s.item? mark apart extra digits valid else none

/-- A line under a heading, a dividing line, the mark of a list item or the start of front
matter. -/
def minus? (valid : Token → Bool) (s : Scan) : Option (Token × Scan) :=
  let wanted : List Token := [.minusItem, .minusItemApart, .underline2, .divider, .minusFront]
  if 3 < s.margin.indent || !wanted.any valid then none
  else
    let row := s.mark.row '-'
    let s := markSecond row row.after
    let ends := s.atBreak
    let bare := row.count == 1 && ends
    let extra := if bare then 1 else row.extra
    let apart := bare && s.margin.isEntered
    let line? : Option Token :=
      if valid .underline2 && !row.spaced && ends && s.margin.isEntered then some .underline2
      else if valid .divider && 3 ≤ row.count && ends then some .divider
      else none
    let found :=
      match line? with
      | some token => some (token, s.mark.clearIndent)
      | none => (if row.count == 1 then s.mark else s).item? .minus apart extra 0 valid
    match found with
    | some (.minusItem, _) => found
    | some (.minusItemApart, _) => found
    | _ =>
        if row.count == 3 && !row.spaced && ends && valid .minusFront then
          (frontMatter? '-' .minusFront s.here.rest.length
            ((found.map Prod.snd).getD s)).or found
        else found

end Scan

end Concordance.Markdown
