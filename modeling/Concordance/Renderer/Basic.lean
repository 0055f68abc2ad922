import Concordance.External
import Concordance.Rendered.Store
import Concordance.Renderer.Curation

/-! # Rendering pages

A page whose links are resolved becomes a rendered page, which holds a reference
for every identifier that it uses. References to pages are made once and shared by
all pages through a store.
-/

namespace Concordance

open Rendered (References)

structure Renderer where
  /-- The pages of the bundle. -/
  atlas : Atlas
  /-- What has summaries of the pages of other bundles. -/
  externals : Informants := []
  /-- The language of pages that are not symbols. -/
  language : String

namespace Renderer

/-- A page in the making. -/
structure Draft where
  /-- The references to pages that are shared by all pages. -/
  store : References
  /-- The references that the page uses. -/
  used : References := []

/-- A step in the making of a page. -/
abbrev Step := StateM Draft

def renderedKind : PageKind → String
  | .article => "article"
  | .module | .redirect | .symbol => "symbol"
  | .tutorial => "project"

/-- Running text that is plain, unless there is none. -/
def plain (text : String) : List Rendered.Inline :=
  if text.isEmpty then [] else [.text text]

/-- Running text without its links. -/
def flat (inlines : Inlines) : List Rendered.Inline :=
  if inlines.isEmpty then [] else [.text inlines.plainText]

/-- What is shown of a page of this bundle, or of a page of another bundle that has a summary. -/
def topic? (r : Renderer) (address : Address) : Option Rendered.Reference :=
  if address.bundle == r.atlas.bundle then
    (r.atlas.page? address).map fun p =>
      .topic (flat p.content.summary) address.identifier (renderedKind p.kind) p.role p.title
        (address.url (p.kind == .tutorial))
  else
    (r.externals.entity? address).map fun e =>
      .topic (plain e.summary) address.identifier e.kind e.role e.title
        (e.url ++ address.fragmentText)

/-- Use a reference on the page, under its identifier. An earlier one of that identifier stays. -/
def use (reference : Rendered.Reference) : Step String := do
  modify fun d => { d with used := d.used.putNew reference.identifier reference }
  return reference.identifier

/-- Use a reference to a page, and tell whether there is anything to show of it. If not, a text
stands in its place. -/
def target (r : Renderer) (address : Address) (text : String) : Step (String × Bool) := do
  let d ← get
  let (found, store) := d.store.getOrInsert address.identifier (r.topic? address)
  set { d with store }
  match found with
  | some topic => return (← use topic, true)
  | none => return (← use (.unresolved address.identifier text), false)

/-- Use a reference to the target of a link, and tell whether the link leads anywhere. -/
def link (r : Renderer) (l : Link) : Step (String × Bool) :=
  match l.destination with
  | .resolved address => r.target address l.fallbackText
  | .url url => do return (← use (.link url l.fallbackText url), true)
  | .failed failure => do return (← use (.unresolved failure.link l.fallbackText), false)
  | .unresolved written => do return (← use (.unresolved written.text l.fallbackText), false)

def inline (r : Renderer) : Inline → Step Rendered.Inline
  | .code text => pure (.code text)
  | .link l => do
      let (identifier, isActive) ← r.link l
      return .reference identifier isActive l.title
  | .text text => pure (.text text)

def inlines (r : Renderer) (xs : Inlines) : Step (List Rendered.Inline) := xs.mapM r.inline

def block (r : Renderer) : Block → Step Rendered.Block
  | .code text language => pure (.code (Text.lines text) language)
  | .heading anchor level text => pure (.heading anchor (UInt8.ofNat level) text)
  | .list true items => do return .orderedList (← items.mapM r.inlines)
  | .list false items => do return .unorderedList (← items.mapM r.inlines)
  | .paragraph content => do return .paragraph (← r.inlines content)

/-- Render prose as a section, unless there is none. -/
def discussion (r : Renderer) (blocks : List Block) : Step (List Rendered.Section) :=
  if blocks.isEmpty then pure [] else do return [.content (← blocks.mapM r.block)]

/-- Use references to pages, and keep the identifiers of those that there is anything to show of. -/
def live (r : Renderer) (targets : List (Address × String)) : Step (List String) := do
  let found ← targets.mapM fun (address, text) => r.target address text
  return (found.filter fun (_, isLive) => isLive).map fun (identifier, _) => identifier

/-- The pages that links lead to, with the texts of the links. -/
def targets (links : List Link) : List (Address × String) :=
  links.filterMap fun l =>
    match l.destination with
    | .resolved address => some (address, l.fallbackText)
    | _ => none

/-- Render a group of links. Only those that lead to pages are kept. -/
def group (r : Renderer) (g : LinkGroup) : Step Rendered.Group := do
  return { identifiers := ← r.live (targets g.links), title := g.title }

/-- Render groups of links, except those of which nothing is kept. -/
def groups (r : Renderer) (gs : List LinkGroup) : Step (List Rendered.Group) := do
  return (← gs.mapM r.group).filter fun g => !g.identifiers.isEmpty

/-- The pages below a page that are shown and are not among those already listed. -/
def uncurated (r : Renderer) (page : Page) (listed : List String) : List Page :=
  ((r.atlas.children page.address).filterMap r.atlas.page?).filter fun p =>
    p.kind != .redirect && !listed.contains p.address.identifier

/-- Render a group of pages that no author has put together. -/
def generatedGroup (r : Renderer) (title : String) (members : List Page) :
    Step Rendered.Group := do
  let identifiers ← r.live (members.map fun p => (p.address, p.title))
  return { generated := true, identifiers, title }

/-- Render the groups of pages below a page: first those of its author, and then all other pages
by their roles. -/
def topics (r : Renderer) (page : Page) (authored : List LinkGroup) :
    Step (List Rendered.Group) := do
  let written ← r.groups authored
  let listed := written.flatMap Rendered.Group.identifiers
  let generated ← (Curation.groups (r.uncurated page listed)).mapM fun (title, members) =>
    r.generatedGroup title members
  return written ++ generated

def relationsOfKind (found : List (RelationKind × String)) (kind : RelationKind) :
    Option Rendered.Relations :=
  match (found.filter fun (k, _) => k == kind).map fun (_, identifier) => identifier with
  | [] => none
  | identifiers => some { identifiers, kind := kind.identifier, title := kind.title }

/-- Render the relations of a symbol, a section for each kind. -/
def relations (r : Renderer) (rs : List Relation) : Step (List Rendered.Relations) := do
  let found ← rs.mapM fun relation => do
    let (identifier, _) ← r.link relation.target
    return (relation.kind, identifier)
  return RelationKind.all.filterMap (relationsOfKind found)

/-- The pages that hold a page, from its module down. -/
def ancestors (r : Renderer) (page : Page) : List Page :=
  match page.parent with
  | some parent => (r.atlas.lineage parent).reverse.filterMap r.atlas.page?
  | none => []

/-- Render the way from the module down to a page. -/
def hierarchy (r : Renderer) (page : Page) : Step (List (List String)) := do
  let path ← (r.ancestors page).mapM fun p => do
    let (identifier, _) ← r.target p.address p.title
    return identifier
  return [path]

/-- The line above the title of a page. -/
def roleHeading (page : Page) (symbol : Option SymbolContent) : String :=
  match page.kind, symbol with
  | .symbol, some content | .module, some content => content.kind.displayName
  | .tutorial, _ => "Tutorial"
  | _, _ => "Article"

def metadata (page : Page) (symbol : Option SymbolContent) : Rendered.Metadata where
  module := symbol.map SymbolContent.module
  platforms := (symbol.map SymbolContent.availability).getD []
  role := page.role
  roleHeading := roleHeading page symbol
  symbolKind :=
    if page.kind == .symbol then symbol.map fun content => content.kind.identifier else none
  title := page.title

def declarations (p : Presentation) : List Rendered.Section :=
  if p.declaration.isEmpty then []
  else [.declarations [{ languages := [p.language], text := p.declaration }]]

/-- Render a section of a tutorial. -/
def chapter (r : Renderer) (s : TutorialSection) : Step Rendered.Chapter := do
  let content ← s.content.mapM r.block
  let steps ← s.steps.mapM r.inlines
  return { anchor := s.anchor, content, steps, title := s.title }

/-- Render what stands below the title and the first paragraph. -/
def body (r : Renderer) (page : Page) (base : Rendered.Page) : Content → Step Rendered.Page
  | .article _ docs => do
      let sections ← r.discussion docs.discussion
      let topics ← r.topics page docs.topics
      let seeAlso ← r.groups docs.seeAlso
      return { base with sections, topics, seeAlso }
  | .redirect _ _ => pure base
  | .symbol content => do
      let discussion ← r.discussion content.docs.discussion
      let topics ← r.topics page content.docs.topics
      let relations ← r.relations content.relations
      let seeAlso ← r.groups content.docs.seeAlso
      return { base with
        sections := declarations content.primary ++ discussion
        topics, relations, seeAlso }
  | .tutorial content => do
      return { base with chapters := ← content.sections.mapM r.chapter }

/-- Render a page that holds given content, but for the references. -/
def page (r : Renderer) (page : Page) (content : Content) : Step Rendered.Page := do
  let summary ← r.inlines content.summary
  let hierarchy ← r.hierarchy page
  let symbol := content.symbol?
  r.body page {
    summary, hierarchy
    language := match symbol with
      | some content => content.primary.language
      | none => r.language
    identifier := page.address.identifier
    kind := renderedKind page.kind
    metadata := metadata page symbol } content

/-- Render a page that holds given content, with the references that it uses. -/
def render (r : Renderer) (page : Page) (content : Content) (store : References) :
    Rendered.Page × References :=
  let (rendered, draft) := (r.page page content).run { store }
  ({ rendered with references := draft.used }, draft.store)

end Renderer

end Concordance
