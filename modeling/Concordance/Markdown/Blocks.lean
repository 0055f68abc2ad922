import Concordance.Grammar.Automaton
import Concordance.Markdown.Token

/-! # The grammar of blocks

What a document is made of, down to its tokens. Blocks stand in sections, which
headings begin; a section holds the sections of lower headings after it.
-/

namespace Concordance.Markdown

open Grammar (Rule Symbol)

/-- A part of a document. -/
inductive Part where
  | document
  | escape
  /-- A label in brackets. -/
  | linkLabel
  /-- Where a link leads. -/
  | linkDestination
  /-- A stretch of a destination in parentheses. -/
  | enclosed
  | angleText
  | linkTitle
  | block
  /-- A block that is no section. -/
  | plainBlock
  | section
  /-- A section with a heading of a level. -/
  | sectionOf (level : Nat)
  /-- A dividing line. -/
  | divider
  /-- A heading of a level, marked by number signs. -/
  | markedHeading (level : Nat)
  /-- The text of such a heading. -/
  | headingText
  /-- A heading of a level, underlined. -/
  | underlinedHeading (level : Nat)
  | indentedCode
  /-- A stretch of indented code without blank lines. -/
  | indentedChunk
  | fencedCode
  /-- What stands between fences. -/
  | fencedText
  /-- What stands after an opening fence. -/
  | fenceInfo
  /-- The language named after an opening fence. -/
  | language
  | html
  | htmlOf (kind : HtmlKind)
  | definition
  | labelText
  | paragraph
  | blankLine
  | quote
  | list
  /-- A list whose items bear a mark. -/
  | listOf (mark : ListMark)
  | itemMark (mark : ListMark)
  | item (mark : ListMark)
  | itemContent
  /-- A line end and the marks of open blocks after it. -/
  | newline
  /-- A line end within a paragraph and the marks of open blocks after it. -/
  | softBreak
  /-- A stretch of text within a line. -/
  | line
  | word
  /-- The box of a task that is done. -/
  | doneTask
  /-- The box of a task that is open. -/
  | openTask
  | table
  /-- A line end within a table and the marks of open blocks after it. -/
  | tableBreak
  /-- The second line of a table. -/
  | tableRule
  /-- A cell of the second line of a table. -/
  | ruleCell
  /-- Any other line of a table. -/
  | tableRow
  | tableCell
  deriving Repr, DecidableEq

/-- What a stretch of a document is known as. -/
inductive Label where
  | section
  | quote
  | heading
  /-- A mark that gives a heading its level. -/
  | level (level : Nat)
  /-- Text that holds inline markup. -/
  | inline
  | paragraph
  | fencedCode
  | fenceInfo
  | fencedText
  | list
  | item
  | itemNumber
  /-- Anything else that is more than a stretch of characters. -/
  | other
  deriving Repr, DecidableEq, Hashable

namespace Label

/-- The label that a token bears everywhere. -/
def ofToken : Token → Option Label
  | .heading1 => some (.level 1)
  | .heading2 => some (.level 2)
  | .heading3 => some (.level 3)
  | .heading4 => some (.level 4)
  | .heading5 => some (.level 5)
  | .heading6 => some (.level 6)
  | .underline1 => some (.level 1)
  | .underline2 => some (.level 2)
  | .continuation => some other
  | .quoteMark => some other
  | .backtickOpen => some other
  | .backtickClose => some other
  | .tildeOpen => some other
  | .tildeClose => some other
  | .minusFront => some other
  | .plusFront => some other
  | t =>
      if t.isStructural || [.finish, .escape, .word, .checkedBox, .emptyBox, .gap].contains t
      then none else some other

/-- The label that a part bears everywhere. -/
def ofPart : Part → Option Label
  | .section => some «section»
  | .markedHeading _ => some heading
  | .underlinedHeading _ => some heading
  | .fencedCode => some fencedCode
  | .fencedText => some fencedText
  | .fenceInfo => some fenceInfo
  | .paragraph => some paragraph
  | .quote => some quote
  | .list => some list
  | .itemMark .dot => some itemNumber
  | .itemMark .parenthesis => some itemNumber
  | .item _ => some item
  | .enclosed => none
  | .angleText => none
  | .block => none
  | .plainBlock => none
  | .sectionOf _ => none
  | .headingText => none
  | .indentedChunk => none
  | .htmlOf _ => none
  | .labelText => none
  | .blankLine => none
  | .listOf _ => none
  | .itemContent => none
  | .newline => none
  | .softBreak => none
  | .line => none
  | .word => none
  | .tableBreak => none
  | _ => some other

end Label

namespace Blocks

abbrev DocumentRule := Rule Token Part Label

abbrev tok (t : Token) : DocumentRule := .token t

abbrev part (p : Part) : DocumentRule := .part p

def gaps : DocumentRule := .optional (tok .gap)

/-- Marks of open blocks, if there are any. -/
def continuation : DocumentRule := .optional (tok .continuation)

/-- Any punctuation but the given. -/
def punctuation (except : List Token) : List DocumentRule :=
  ([.openBracket, .closeBracket, .less, .greater, .mark, .doubleQuote, .singleQuote, .comma,
    .hyphen, .colon, .openBrace, .bar, .closeBrace, .openParen, .closeParen].filter
      fun t => !except.contains t).map tok

/-- Characters written in another way. -/
def replaced : List DocumentRule := [part .escape, tok .entity, tok .charNumber]

/-- What a link's destination may hold besides the given punctuation. -/
def destinationText (except : List Token) : DocumentRule :=
  .oneOf ([part .word] ++ punctuation except ++ replaced ++ [part .enclosed])

/-- The title of a link between two tokens. -/
def title (opener closer : Token) : DocumentRule :=
  .seq [tok opener,
    .any (.oneOf ([part .word] ++ punctuation [opener, closer] ++ [tok .gap] ++ replaced ++
      [part .softBreak])),
    tok closer]

/-- A section: its heading, and what follows up to the next heading of that level or above. -/
def sectionOf (level : Nat) : DocumentRule :=
  let inner := ((List.range 7).filter (level < ·)).reverse.map fun l => part (.sectionOf l)
  let body := match inner with
    | [] => part .plainBlock
    | _ => .either (.labelled .section (.oneOf inner)) (part .plainBlock)
  .seq [part (.markedHeading level), .any body]

def lineEnd : DocumentRule := .either (part .newline) (tok .finalEnd)

/-- Fenced code with fences of a mark. -/
def fenced (mark : FenceMark) : DocumentRule :=
  .seq [tok (.fenceOpen mark), gaps, .optional (part .fenceInfo), part .newline,
    .optional (part .fencedText),
    .optional (.seq [tok (.fenceClose mark), tok .closing, part .newline]), tok .blockEnd]

def infoText : DocumentRule := .any (.oneOf (part .line :: replaced))

def htmlEnd : HtmlKind → DocumentRule
  | .raw => tok .rawClose
  | .comment => tok .commentEnd
  | .instruction => tok .instructionEnd
  | .declaration => tok .greater
  | .charData => tok .charDataEnd
  | _ => .seq [part .newline, part .blankLine]

def htmlOf (kind : HtmlKind) : DocumentRule :=
  .seq [tok (.htmlOpen kind),
    .any (.oneOf [part .line, part .newline, .seq [htmlEnd kind, tok .closing]]),
    tok .blockEnd, continuation]

/-- A gap with at most one line end, which may end a line of its own. -/
def wideGap : DocumentRule :=
  .either (.seq [tok .gap, .optional (.seq [part .softBreak, gaps])])
    (.seq [part .softBreak, gaps])

def definition : DocumentRule :=
  .weighing 10 (.seq [gaps, part .linkLabel, tok .colon,
    .optional (.seq [gaps, .optional (.seq [part .softBreak, gaps])]),
    part .linkDestination,
    .optional (.weighing 20 (.seq [wideGap, .optional (tok .noCode), part .linkTitle])),
    .oneOf [part .newline, part .softBreak, tok .finalEnd]])

def levels : List Nat := [1, 2, 3, 4, 5, 6]

def listMarks : List ListMark := [.plus, .minus, .star, .dot, .parenthesis]

def htmlKinds : List HtmlKind :=
  [.raw, .comment, .instruction, .declaration, .charData, .blockElement, .loneTag]

/-- A cell of a table's row, with gaps around it. -/
def paddedCell : DocumentRule := .seq [gaps, part .tableCell, gaps]

/-- What each part is made of. -/
def rule : Part → DocumentRule
  | .document =>
      .seq [.optional (.either (tok .minusFront) (tok .plusFront)),
        .labelled .section (.any (part .plainBlock)), .any (part .section)]
  | .escape => tok .escape
  | .linkLabel =>
      .seq [tok .openBracket,
        .many (.oneOf ([part .labelText] ++ replaced ++ [part .softBreak])), tok .closeBracket]
  | .linkDestination =>
      .weighing 10 (.either
        (.seq [tok .less, .any (.oneOf (part .angleText :: replaced)), tok .greater])
        (.seq [destinationText [.less, .openParen, .closeParen],
          .any (destinationText [.openParen, .closeParen])]))
  | .enclosed =>
      .seq [tok .openParen, .any (destinationText [.openParen, .closeParen]), tok .closeParen]
  | .angleText => .oneOf ([part .word] ++ punctuation [.less, .greater] ++ [tok .gap])
  | .linkTitle =>
      .oneOf [title .doubleQuote .doubleQuote, title .singleQuote .singleQuote,
        title .openParen .closeParen]
  | .block => .either (part .plainBlock) (part .section)
  | .plainBlock =>
      .oneOf ([.underlinedHeading 1, .underlinedHeading 2, .paragraph, .indentedCode, .quote,
        .divider, .list, .fencedCode, .blankLine, .html, .definition, .table].map part)
  | .section => .oneOf (levels.map fun level => part (.sectionOf level))
  | .sectionOf level => sectionOf level
  | .divider => .seq [tok .divider, lineEnd]
  | .markedHeading level =>
      .seq [tok (.heading level), .optional (part .headingText), part .newline]
  | .headingText => .seq [gaps, .labelled .inline (part .line)]
  | .underlinedHeading level =>
      .seq [part .paragraph, tok (if level == 1 then .underline1 else .underline2), lineEnd]
  | .indentedCode =>
      .seq [part .indentedChunk, .any (.either (part .indentedChunk) (part .blankLine))]
  | .indentedChunk =>
      .seq [tok .codeIndent, .any (.either (part .line) (part .newline)), tok .blockEnd,
        continuation]
  | .fencedCode => .either (fenced .backtick) (fenced .tilde)
  | .fencedText => .many (.either (part .newline) (part .line))
  | .fenceInfo =>
      .either (.seq [part .language, infoText])
        (.seq [.many (.either (tok .openBrace) (tok .closeBrace)),
          .optional (.either (.seq [part .language, infoText]) (.seq [tok .gap, infoText]))])
  | .language =>
      .many (.oneOf ([part .word] ++ punctuation [.openBrace, .closeBrace, .comma] ++ replaced))
  | .html => .seq [gaps, .oneOf (htmlKinds.map fun kind => part (.htmlOf kind))]
  | .htmlOf kind => htmlOf kind
  | .definition => definition
  | .labelText =>
      .oneOf ([part .word, tok .gap] ++ punctuation [.openBracket, .closeBracket])
  | .paragraph =>
      .seq [.labelled .inline (.many (.either (part .line) (part .softBreak))), lineEnd]
  | .blankLine => .seq [tok .blankStart, lineEnd]
  | .quote =>
      .seq [tok .quoteMark, continuation, .any (part .block), tok .blockEnd, continuation]
  | .list => .oneOf (listMarks.map fun mark => part (.listOf mark))
  | .listOf mark => .many (part (.item mark))
  | .itemMark mark => .either (tok (.item false mark)) (tok (.item true mark))
  | .item mark =>
      .seq [part (.itemMark mark), continuation, part .itemContent, tok .blockEnd, continuation]
  | .itemContent =>
      .oneOf [.seq [part .blankLine, part .blankLine, tok .closing, continuation],
        .many (part .block),
        .seq [.either (part .doneTask) (part .openTask), tok .gap, part .paragraph,
          .any (part .block)]]
  | .newline => .seq [tok .lineEnd, continuation]
  | .softBreak => .seq [tok .softLineEnd, continuation]
  | .line => .many (.oneOf ([part .word, tok .gap] ++ punctuation []))
  | .word => .oneOf [tok .word, tok .checkedBox, tok .emptyBox]
  | .doneTask => tok .checkedBox
  | .openTask => tok .emptyBox
  | .table =>
      .seq [tok .tableStart, .labelled .other (part .tableRow), part .newline, part .tableRule,
        .any (.seq [part .tableBreak, .optional (part .tableRow)]), lineEnd]
  | .tableBreak => .seq [tok .tableLineEnd, continuation]
  | .tableRule =>
      .seq [.optional (.seq [gaps, tok .bar]),
        .many (.seq [gaps, part .ruleCell, gaps, tok .bar]), gaps,
        .optional (.seq [part .ruleCell, gaps])]
  | .ruleCell =>
      .seq [.optional (.labelled .other (tok .colon)), .many (tok .hyphen),
        .optional (.labelled .other (tok .colon))]
  | .tableRow =>
      .seq [.optional (.seq [gaps, tok .bar]),
        .either
          (.seq [.many (.seq [.either paddedCell (.labelled .other (tok .gap)), tok .bar]), gaps,
            .optional (.seq [part .tableCell, gaps])])
          paddedCell]
  | .tableCell =>
      let inside := punctuation [.bar]
      .seq [.oneOf ([part .word, tok .escape] ++ inside),
        .any (.oneOf ([part .word, tok .gap, tok .escape] ++ inside))]

def parts : List Part := List.flatten [
  [.document, .escape, .linkLabel, .linkDestination, .enclosed, .angleText, .linkTitle, .block,
    .plainBlock, .section],
  levels.map Part.sectionOf, [.divider], levels.map Part.markedHeading,
  [.headingText, .underlinedHeading 1, .underlinedHeading 2, .indentedCode, .indentedChunk,
    .fencedCode, .fencedText, .fenceInfo, .language, .html],
  htmlKinds.map Part.htmlOf,
  [.definition, .labelText, .paragraph, .blankLine, .quote, .list],
  listMarks.map Part.listOf, listMarks.map Part.itemMark, listMarks.map Part.item,
  [.itemContent, .newline, .softBreak, .line, .word, .doneTask, .openTask, .table, .tableBreak,
    .tableRule, .ruleCell, .tableRow, .tableCell]]

/-- The repetition that text within a line is made of. -/
def lineRun : Symbol Token Part Label :=
  match rule .line with
  | .many r => .run r
  | _ => .part .line

/-- The grammar of documents. A label or a definition may turn out to be plain text, and what stands
after a definition may turn out to be no title. -/
def rules : Grammar.Rulebook Token Part Label where
  tokenNumber := Token.number
  tokenLabel := Label.ofToken
  tokens := Token.all
  parts := parts.map fun p => (p, rule p)
  partLabel := Label.ofPart
  rivals := [(lineRun, .part .linkLabel), (lineRun, .part .definition),
    (.part .definition, .part .definition)]

/-- The automaton of documents, which is found when it is first needed. -/
def automaton : Thunk (Grammar.Automaton Label) :=
  ⟨fun _ => .ofRules rules⟩

end Blocks

end Concordance.Markdown
