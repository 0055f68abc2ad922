import Concordance.Link.Outcome

/-! # Markup

The prose of pages: inline elements, blocks, groups of links, and tutorials, with
the links in them at every stage from written to resolved.
-/

namespace Concordance

/-- Where a link leads, as far as is known. -/
inductive Destination where
  /-- Nowhere: it was resolved without success. -/
  | failed (failure : Failure)
  /-- To this page or heading. -/
  | resolved (address : Address)
  /-- It was read, and is not resolved yet. -/
  | unresolved (link : WrittenLink)
  /-- To a web address, which stays as it is. -/
  | url (address : String)
  deriving Repr, DecidableEq

structure Link where
  destination : Destination
  /-- The text its author gave it; without one, the title of its target is shown. -/
  title : Option String := none
  deriving Repr, DecidableEq

namespace Link

/-- A link that is to be resolved. -/
def written (link : WrittenLink) (title : Option String := none) : Link where
  destination := .unresolved link
  title := title

/-- The text of a link where links cannot be shown. -/
def fallbackText (link : Link) : String :=
  match link.title with
  | some title => title
  | none =>
      match link.destination with
      | .failed failure => failure.link
      | .resolved address => address.path.getLastD ""
      | .unresolved link => link.components.getLastD link.text
      | .url address => address

end Link

inductive Inline where
  | code (text : String)
  | link (link : Link)
  | text (text : String)
  deriving Repr, DecidableEq

namespace Inline

def plainText : Inline → String
  | code s => s
  | link l => l.fallbackText
  | text s => s

def traverseLinks {m : Type → Type} [Monad m] (f : Link → m Link) : Inline → m Inline
  | code s => pure (code s)
  | link l => do return link (← f l)
  | text s => pure (text s)

def links : Inline → List Link
  | link l => [l]
  | _ => []

end Inline

abbrev Inlines := List Inline

namespace Inlines

def plainText (xs : Inlines) : String := String.join (xs.map Inline.plainText)

/-- Do something to every link, in reading order. -/
def traverseLinks {m : Type → Type} [Monad m] (f : Link → m Link) (xs : Inlines) : m Inlines :=
  xs.mapM (Inline.traverseLinks f)

def links (xs : Inlines) : List Link := xs.flatMap Inline.links

end Inlines

inductive Block where
  | code (text : String) (language : Option String)
  /-- A heading, with the fragment that names it. -/
  | heading (anchor : String) (level : Nat) (text : String)
  | list (ordered : Bool) (items : List Inlines)
  | paragraph (inlines : Inlines)
  deriving Repr, DecidableEq

namespace Block

def anchor? : Block → Option String
  | heading anchor _ _ => some anchor
  | _ => none

def traverseLinks {m : Type → Type} [Monad m] (f : Link → m Link) : Block → m Block
  | code text language => pure (code text language)
  | heading anchor level text => pure (heading anchor level text)
  | list ordered items => do return list ordered (← items.mapM (Inlines.traverseLinks f))
  | paragraph inlines => do return paragraph (← Inlines.traverseLinks f inlines)

def links : Block → List Link
  | list _ items => items.flatMap Inlines.links
  | paragraph inlines => Inlines.links inlines
  | _ => []

end Block

structure LinkGroup where
  title : String
  links : List Link
  deriving Repr, DecidableEq

namespace LinkGroup

def traverseLinks {m : Type → Type} [Monad m] (f : Link → m Link) (g : LinkGroup) :
    m LinkGroup := do
  return { g with links := ← g.links.mapM f }

end LinkGroup

/-- The prose of a symbol or an article. -/
structure Markup where
  /-- The first paragraph. -/
  summary : Inlines := []
  /-- What follows it, but for the groups of links. -/
  discussion : List Block := []
  /-- The groups of links to pages that belong below this one. -/
  topics : List LinkGroup := []
  /-- The groups of links to related pages. -/
  seeAlso : List LinkGroup := []
  deriving Repr, DecidableEq

namespace Markup

/-- Add what an extension says. An empty summary is replaced, and all else is appended. -/
def extend (m extension : Markup) : Markup where
  summary := if m.summary.isEmpty then extension.summary else m.summary
  discussion := m.discussion ++ extension.discussion
  topics := m.topics ++ extension.topics
  seeAlso := m.seeAlso ++ extension.seeAlso

/-- The fragments that name its headings. -/
def anchors (m : Markup) : List String := m.discussion.filterMap Block.anchor?

def traverseLinks {m : Type → Type} [Monad m] (f : Link → m Link) (markup : Markup) : m Markup := do
  let summary ← Inlines.traverseLinks f markup.summary
  let discussion ← markup.discussion.mapM (Block.traverseLinks f)
  let topics ← markup.topics.mapM (LinkGroup.traverseLinks f)
  let seeAlso ← markup.seeAlso.mapM (LinkGroup.traverseLinks f)
  return { summary, discussion, topics, seeAlso }

def links (m : Markup) : List Link :=
  Inlines.links m.summary ++ m.discussion.flatMap Block.links
    ++ m.topics.flatMap LinkGroup.links ++ m.seeAlso.flatMap LinkGroup.links

end Markup

structure TutorialSection where
  /-- The fragment that names it. -/
  anchor : String
  title : String
  /-- The blocks that introduce it. -/
  content : List Block := []
  steps : List Inlines := []
  deriving Repr, DecidableEq

namespace TutorialSection

/-- The fragments that name the section and its headings. -/
def anchors (s : TutorialSection) : List String := s.anchor :: s.content.filterMap Block.anchor?

def traverseLinks {m : Type → Type} [Monad m] (f : Link → m Link) (s : TutorialSection) :
    m TutorialSection := do
  let content ← s.content.mapM (Block.traverseLinks f)
  let steps ← s.steps.mapM (Inlines.traverseLinks f)
  return { s with content, steps }

def links (s : TutorialSection) : List Link :=
  s.content.flatMap Block.links ++ s.steps.flatMap Inlines.links

end TutorialSection

structure Tutorial where
  title : String
  /-- The first paragraph. -/
  summary : Inlines := []
  sections : List TutorialSection := []
  deriving Repr, DecidableEq

namespace Tutorial

def traverseLinks {m : Type → Type} [Monad m] (f : Link → m Link) (t : Tutorial) : m Tutorial := do
  let summary ← Inlines.traverseLinks f t.summary
  let sections ← t.sections.mapM (TutorialSection.traverseLinks f)
  return { t with summary, sections }

def links (t : Tutorial) : List Link :=
  Inlines.links t.summary ++ t.sections.flatMap TutorialSection.links

end Tutorial

end Concordance
