import Concordance.Content
import Concordance.Markdown.Outline
import Concordance.Markup.Span
import Concordance.Text.FilePath

/-! # Documents

A document's blocks are sorted into the parts of a page. Its title and its
directives decide what kind of page it makes.
-/

namespace Concordance

open Markdown (OutlineBlock)

structure Document where
  path : String
  source : String
  deriving Repr, DecidableEq

/-- Why a document makes no page. -/
inductive DocumentFlaw where
  /-- The target of a redirect is no link. -/
  | badRedirect (cause : MalformedLink)
  /-- There is no heading of level one. -/
  | noTitle
  /-- The symbol named by the title is no link. -/
  | badExtension (cause : MalformedLink)
  deriving Repr, DecidableEq

def DocumentFlaw.message : DocumentFlaw → String
  | badRedirect cause => "bad redirect target: " ++ cause.message
  | noTitle => "document has no level-1 title"
  | badExtension cause => "bad extension title: " ++ cause.message

/-- A document that makes no page, and why. -/
structure MalformedDocument where
  path : String
  flaw : DocumentFlaw
  deriving Repr, DecidableEq

def MalformedDocument.message (m : MalformedDocument) : String :=
  s!"malformed document {m.path}: {m.flaw.message}"

inductive ParsedDocument where
  | page (content : Content)
  /-- More prose for the page of a symbol. -/
  | extension (target : WrittenLink) (docs : Markup)
  deriving Repr, DecidableEq

namespace Directive

def tutorialMark : String := "@Tutorial"

/-- What a redirect starts with. -/
def redirectMark : String := "@Redirect("

/-- Whether a paragraph holds directives. -/
def isWritten (text : String) : Bool :=
  Text.startsWith tutorialMark text || Text.startsWith redirectMark text

/-- The pieces between the places where a space stands before an at sign. -/
def cut : List Char → List (List Char)
  | [] => [[]]
  | ' ' :: '@' :: rest => [] :: cut rest
  | c :: rest =>
      match cut rest with
      | [] => [[c]]
      | piece :: pieces => (c :: piece) :: pieces

/-- A piece of a paragraph with the at sign it begins with. -/
def ofPiece (piece : List Char) : String :=
  String.ofList (if piece.head? == some '@' then piece else '@' :: piece)

/-- Take a paragraph of directives apart, one block for each. -/
def splitBlock : OutlineBlock → List OutlineBlock
  | .paragraph text =>
      if isWritten text then
        (cut text.toList).map fun piece => .paragraph (ofPiece piece)
      else [.paragraph text]
  | b => [b]

def ofBlock? : OutlineBlock → Option String
  | .paragraph text => if isWritten text then some text else none
  | _ => none

/-- What stands between an opening and a closing text. -/
def unwrap? (lead tail : String) (s : String) : Option String :=
  (Text.dropLead? lead s).bind (Text.dropTail? tail)

/-- The link between double backticks. -/
def unwrapSymbol? (s : String) : Option String := unwrap? "``" "``" s

/-- The text of the link that a redirect names, without the marks of a link around it. -/
def redirectTarget? (directive : String) : Option String := do
  let body ← Text.dropLead? redirectMark directive
  let inner := Text.trim (← Text.dropTail? ")" (Text.trimEnd body))
  return ((unwrap? "<" ">" inner).or (unwrapSymbol? inner)).getD inner

/-- The blocks of a text, with every directive in a block of its own. -/
def blocks (source : String) : List OutlineBlock :=
  (Markdown.Outline.ofText source).flatMap splitBlock

end Directive

namespace Block

def ofOutline : OutlineBlock → Block
  | .code text info => code text info
  | .heading level text => heading (Text.slug text) level text
  | .list ordered items => list ordered (items.map Inlines.ofText)
  | .paragraph text => paragraph (Inlines.ofText text)

end Block

namespace Markup

/-- The part of a document that its blocks go to. -/
inductive Part where
  | discussion
  | topics
  | seeAlso
  deriving Repr, DecidableEq

/-- The part that a heading opens, by its level and its text in any case of ASCII letters. -/
def Part.opened? (level : Nat) (text : String) : Option Part :=
  let words := text.toList.map Char.toLower
  if level != 2 then none
  else if words == "topics".toList then some topics
  else if words == "see also".toList then some seeAlso
  else none

/-- The title of the group for links before any heading of a group. -/
def Part.defaultTitle : Part → String
  | seeAlso => "See Also"
  | _ => "Topics"

def editGroups (part : Part) (f : List LinkGroup → List LinkGroup) (m : Markup) : Markup :=
  match part with
  | .seeAlso => { m with seeAlso := f m.seeAlso }
  | _ => { m with topics := f m.topics }

/-- Add links to the last group, or to a new one of the given title if there is none. -/
def addToLast (title : String) (links : List Link) : List LinkGroup → List LinkGroup
  | [] => [⟨title, links⟩]
  | [g] => [{ g with links := g.links ++ links }]
  | g :: rest => g :: addToLast title links rest

/-- Sort one block. The first block of all becomes the summary if it is a paragraph. Prose among
groups of links is passed over, and any other block there leads back to the discussion. -/
def sortBlock (state : Markup × Part) (first : Bool) (b : OutlineBlock) : Markup × Part :=
  let (m, part) := state
  let toDiscussion : Markup × Part :=
    ({ m with discussion := m.discussion ++ [Block.ofOutline b] }, .discussion)
  match b with
  | .heading level text =>
      match Part.opened? level text with
      | some next => (m, next)
      | none =>
          if part != .discussion && 3 ≤ level then
            (m.editGroups part (· ++ [⟨text, []⟩]), part)
          else toDiscussion
  | .list _ items =>
      if part == .discussion then toDiscussion
      else
        let links := items.flatMap fun item => Inlines.links (Inlines.ofText item)
        (m.editGroups part (addToLast part.defaultTitle links), part)
  | .paragraph text =>
      if part != .discussion then state
      else if first then ({ m with summary := Inlines.ofText text }, part)
      else toDiscussion
  | .code _ _ => toDiscussion

def ofOutline (blocks : List OutlineBlock) : Markup :=
  match blocks with
  | [] => {}
  | b :: rest =>
      (rest.foldl (sortBlock · false ·) (sortBlock ({}, .discussion) true b)).1

/-- Read a text without a title, such as a documentation comment. -/
def ofComment (source : String) : Markup :=
  ofOutline (Directive.blocks source)

end Markup

namespace Tutorial

def editLast (f : TutorialSection → TutorialSection) : List TutorialSection → List TutorialSection
  | [] => []
  | [s] => [f s]
  | s :: rest => s :: editLast f rest

/-- Sort one block. The first block of all becomes the summary if it is a paragraph; other blocks
before the first section are passed over. -/
def sortBlock (t : Tutorial) (first : Bool) (b : OutlineBlock) : Tutorial :=
  let toSection (f : TutorialSection → TutorialSection) : Tutorial :=
    { t with sections := editLast f t.sections }
  let toContent := toSection fun s => { s with content := s.content ++ [Block.ofOutline b] }
  match b with
  | .heading 2 text =>
      { t with sections := t.sections ++ [{ anchor := Text.slug text, title := text }] }
  | .paragraph text =>
      if first then { t with summary := Inlines.ofText text } else toContent
  | .list true items =>
      toSection fun s => { s with steps := s.steps ++ items.map Inlines.ofText }
  | _ => toContent

def ofOutline (title : String) (blocks : List OutlineBlock) : Tutorial :=
  match blocks with
  | [] => { title }
  | b :: rest => rest.foldl (sortBlock · false ·) (sortBlock { title } true b)

end Tutorial

namespace Document

def name (d : Document) : String := FilePath.stem d.path

/-- Take the first heading of level one out of the blocks, as the title. -/
def takeTitle : List OutlineBlock → Option String × List OutlineBlock
  | [] => (none, [])
  | .heading 1 text :: rest => (some text, rest)
  | b :: rest =>
      let (title, body) := takeTitle rest
      (title, b :: body)

/-- Make what a document turns out to be from its blocks. A redirect needs no title; all other pages
do. -/
def ofBlocks (d : Document) (blocks : List OutlineBlock) :
    Except MalformedDocument ParsedDocument :=
  let directives := blocks.filterMap Directive.ofBlock?
  let (title, body) := takeTitle (blocks.filter fun b => (Directive.ofBlock? b).isNone)
  match directives.findSome? Directive.redirectTarget? with
  | some target =>
      match WrittenLink.parse target with
      | .ok link => .ok (.page (.redirect (title.getD d.name) link))
      | .error cause => .error ⟨d.path, .badRedirect cause⟩
  | none =>
      match title with
      | none => .error ⟨d.path, .noTitle⟩
      | some title =>
          if directives.any (Text.startsWith Directive.tutorialMark) then
            .ok (.page (.tutorial (Tutorial.ofOutline title body)))
          else match Directive.unwrapSymbol? title with
            | some symbol =>
                match WrittenLink.parse symbol with
                | .ok link => .ok (.extension link (Markup.ofOutline body))
                | .error cause => .error ⟨d.path, .badExtension cause⟩
            | none => .ok (.page (.article title (Markup.ofOutline body)))

def parse (d : Document) : Except MalformedDocument ParsedDocument :=
  d.ofBlocks (Directive.blocks d.source)

end Document

end Concordance
