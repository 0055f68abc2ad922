import Concordance.Markdown.Margin

/-! # Blocks of HTML

The seven ways in which a block of HTML begins. What a tag looks like is checked only
where a line is to be nothing but a tag.
-/

namespace Concordance.Markdown

namespace Html

/-- Elements whose content is not markup. -/
def rawElements : List String := ["pre", "script", "style"]

/-- Elements that make a block of their own. -/
def blockElements : List String := [
  "address", "article", "aside", "base", "basefont", "blockquote", "body", "caption", "center",
  "col", "colgroup", "dd", "details", "dialog", "dir", "div", "dl", "dt", "fieldset", "figcaption",
  "figure", "footer", "form", "frame", "frameset", "h1", "h2", "h3", "h4", "h5", "h6", "head",
  "header", "hr", "html", "iframe", "legend", "li", "link", "main", "menu", "menuitem", "nav",
  "noframes", "ol", "optgroup", "option", "p", "param", "section", "source", "summary", "table",
  "tbody", "td", "tfoot", "th", "thead", "title", "tr", "track", "ul"]

/-- Characters that an attribute's name begins with. -/
def startsAttribute (c : Char) : Bool := c.isAlpha || c == '_' || c == ':'

/-- Characters that an attribute's name goes on with. -/
def isAttributeChar (c : Char) : Bool := c.isAlphanum || ['_', ':', '.', '-'].contains c

/-- Characters of a value without quotes. -/
def isBareChar (c : Char) : Bool :=
  !(isGap c || isBreak c || ['\x22', '\x27', '=', '<', '>', '\x60'].contains c)

end Html

namespace Scan

def openHtml (kind : HtmlKind) (s : Scan) : Option (Token × Scan) :=
  if s.margin.hasRoom then some (.htmlOpen kind, s.openBlock .html) else none

/-- The place after the value of an attribute. -/
def afterValue? (s : Scan) : Option Scan :=
  if s.at? '\x22' || s.at? '\x27' then
    let quote := s.char?
    let s := s.step.skip fun c => some c != quote && !isBreak c
    if s.char? == quote then some s.step else none
  else if s.char?.any Html.isBareChar then some (s.skip Html.isBareChar)
  else none

/-- The place before the end of an opening tag, after its attributes and a slash, by recursion on an
amount that exceeds the number of attributes. Every attribute has a gap before it. -/
def afterAttributes? : Nat → Bool → Scan → Option Scan
  | 0, _, _ => none
  | fuel + 1, gapBefore, s =>
      let gapped := gapBefore || s.atGap
      let s := s.skipGaps
      if s.at? '/' then some s.step
      else if s.at? '>' then some s
      else if gapped && s.char?.any Html.startsAttribute then
        let s := s.step.skip Html.isAttributeChar
        let gapped := s.atGap
        let s := s.skipGaps
        if s.at? '=' then
          match s.step.skipGaps.afterValue? with
          | some s => afterAttributes? fuel false s
          | none => none
        else afterAttributes? fuel gapped s
      else none

/-- Begin a block with a tag that is alone on its line, from behind the letters of its name. -/
def loneTag? (closes complete : Bool) (s : Scan) : Option (Token × Scan) :=
  let ends? : Option Scan :=
    if complete then some s
    else
      let s := s.skip fun c => c.isAlphanum || c == '-'
      let last? := if closes then some s.skipGaps
        else s.afterAttributes? (s.here.rest.length + 1) false
      last?.bind fun s => if s.at? '>' then some s.step else none
  ends?.bind fun s =>
    let s := s.skipGaps
    if s.atBreak then s.openHtml .loneTag else none

/-- Begin or end a block with a tag, from behind its angle bracket. Longer names than the known ones
are not told apart. -/
def tag? (valid : Token → Bool) (s : Scan) : Option (Token × Scan) :=
  let closes := s.at? '/'
  let s := if closes then s.step else s
  let letters := s.here.rest.takeWhile Char.isAlpha
  let s := s.skip Char.isAlpha
  let name := if letters.length ≤ 10 then String.ofList (letters.map Char.toLower) else ""
  let ends := s.atGap || s.atBreak || s.at? '>'
  let slash := name != "" && !ends && s.at? '/'
  let complete := slash && s.step.at? '>'
  let after := if complete then s.step.step else if slash then s.step else s
  let rest : Option (Token × Scan) :=
    if (ends || complete) && Html.blockElements.contains name && valid .elementOpen then
      after.openHtml .blockElement
    else if valid .tagOpen then after.loneTag? closes complete
    else none
  if letters.isEmpty then none
  else if ends && Html.rawElements.contains name then
    if closes then (if valid .rawClose then some (.rawClose, s) else rest)
    else if valid .rawOpen then s.openHtml .raw else rest
  else rest

/-- Begin a block with an exclamation mark, from behind it. What fits none of these may still be a
tag. -/
def exclamation? (valid : Token → Bool) (s : Scan) : Option (Token × Scan) :=
  if s.at? '-' then
    let s := s.step
    if s.at? '-' && valid .commentOpen then s.step.openHtml .comment else s.tag? valid
  else if s.char?.any Char.isUpper && valid .declarationOpen then s.step.openHtml .declaration
  else if s.at? '[' then
    let (fits, s) := "CDATA".toList.foldl (fun (fits, s) c =>
      if fits && s.at? c then (true, s.step) else (false, s)) (true, s.step)
    if fits && s.at? '[' && valid .charDataOpen then s.step.openHtml .charData else s.tag? valid
  else s.tag? valid

/-- Begin or end a block of HTML. -/
def html? (valid : Token → Bool) (s : Scan) : Option (Token × Scan) :=
  let wanted : List Token := [.rawOpen, .rawClose, .commentOpen, .instructionOpen,
    .declarationOpen, .charDataOpen, .elementOpen, .tagOpen]
  if !wanted.any valid then none
  else
    let s := s.step
    if s.at? '?' && valid .instructionOpen then s.step.openHtml .instruction
    else if s.at? '!' then s.step.exclamation? valid
    else s.tag? valid

end Scan

end Concordance.Markdown
