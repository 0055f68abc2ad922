import Concordance.Grammar.Parser
import Concordance.Markdown.Blocks
import Concordance.Markdown.Scanner
import Concordance.Markdown.Words

/-! # The block structure of a document

A document is read into its headings, paragraphs, fenced code and lists. Sections and
block quotes are opened up: what they hold stands among the blocks around them. Of a
list item only the paragraphs that it holds directly are kept. What does not fit the
grammar is left out.

A block's text is the stretch of the document that it covers, so that the marks of a
block quote stay in it from its second line on, and the marks of the line after a
paragraph close its text.
-/

namespace Concordance.Markdown

open Grammar (Place Tree)

/-- A block of a document, before inline markup is read. -/
inductive OutlineBlock where
  /-- Fenced code, with what stands after its opening fence. -/
  | code (text : String) (info : Option String)
  | heading (level : Nat) (text : String)
  /-- A list, with one text for each item. -/
  | list (ordered : Bool) (items : List String)
  | paragraph (text : String)
  deriving Repr, DecidableEq

def lexer : Grammar.Lexer Margin where
  fresh := {}
  scan margin valid here :=
    let seeks (t : Token) : Bool := valid t.number
    if Token.structural.any seeks then
      (structuralToken margin seeks here).map fun (token, stop, margin) =>
        (token.number, stop, margin)
    else none
  read valid here :=
    (wordToken (fun t => valid t.number) here).map fun (token, stop) => (token.number, stop)

def tree? (text : List Char) : Option (Tree Label Margin) :=
  ({ automaton := Blocks.automaton.get, lexer } : Grammar.Parser Label Margin).parse text

/-- A labelled stretch of a document, or one without a label that does not fit the grammar. -/
inductive Stretch where
  /-- A stretch with its label, its characters, and the stretches in it. -/
  | of (label : Option Label) (text : List Char) (parts : List Stretch)

namespace Stretch

def label : Stretch → Option Label
  | of l _ _ => l

def text : Stretch → List Char
  | of _ t _ => t

def parts : Stretch → List Stretch
  | of _ _ ps => ps

/-- Whether the stretches in one with a label matter. -/
def isOpen : Option Label → Bool
  | some .section => true
  | some .quote => true
  | some .heading => true
  | some .fencedCode => true
  | some .list => true
  | some .item => true
  | _ => false

/-- The stretches that trees show, with the labels given to the trees where they stand. -/
def ofTrees : List (Option Label) → List (Tree Label Margin) → List Stretch
  | _, [] => []
  | labels, { label, start, stop, reading, extra, labels := inner, children, .. } :: rest =>
      let given := if extra then none else labels.head?.join
      let shown := given.or label
      let here :=
        if shown.isSome || reading == .error then
          [of shown (start.textTo stop) (if isOpen shown then ofTrees inner children else [])]
        else ofTrees inner children
      here ++ ofTrees (if extra then labels else labels.tail) rest

def ofTree (t : Tree Label Margin) : List Stretch := ofTrees t.labels t.children

end Stretch

namespace Outline

/-- Lines with the blanks around them taken away, joined by spaces; blank lines vanish. -/
def normalize (s : List Char) : String :=
  " ".intercalate (((Text.lines (String.ofList s)).map Text.trim).filter (· != ""))

/-- A heading. One without text is left out. -/
def heading (s : Stretch) : List OutlineBlock :=
  let level := s.parts.foldl (fun level p =>
    match p.label with
    | some (.level n) => n
    | _ => level) 1
  let title := s.parts.foldl (fun title p =>
    match p.label with
    | some .inline => some (normalize p.text)
    | some .paragraph => some (normalize p.text)
    | _ => title) none
  let text := title.getD (Text.trim (String.ofList (s.text.dropWhile (· == '#'))))
  if text == "" then [] else [.heading level text]

/-- Fenced code without the line ends that close it. -/
def code (s : Stretch) : OutlineBlock :=
  let find (l : Label) : Option (List Char) :=
    (s.parts.reverse.find? fun p => p.label == some l).map Stretch.text
  let info := (find .fenceInfo).map fun text => Text.trim (String.ofList text)
  let body := Text.dropEndWhile (· == '\n') ((find .fencedText).getD [])
  .code (String.ofList body) (info.filter (· != ""))

/-- The paragraphs that an item holds directly. -/
def itemText (s : Stretch) : String :=
  " ".intercalate ((s.parts.filter fun p => p.label == some .paragraph).map fun p =>
    normalize p.text)

/-- A list. It is ordered if an item bears a number. -/
def list (s : Stretch) : OutlineBlock :=
  let items := s.parts.filter fun p => p.label == some .item
  .list (items.any fun item => item.parts.any fun p => p.label == some .itemNumber)
    (items.map itemText)

def ofStretches : List Stretch → List OutlineBlock
  | [] => []
  | .of label text parts :: rest =>
      let blocks := match label with
        | some .section => ofStretches parts
        | some .quote => ofStretches parts
        | some .heading => heading (.of label text parts)
        | some .paragraph => [.paragraph (normalize text)]
        | some .fencedCode => [code (.of label text parts)]
        | some .list => [list (.of label text parts)]
        | _ => []
      blocks ++ ofStretches rest

def ofText (text : String) : List OutlineBlock :=
  match tree? text.toList with
  | some tree => ofStretches (Stretch.ofTree tree)
  | none => []

end Outline

end Concordance.Markdown
