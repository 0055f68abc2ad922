import Concordance.Rendered.Store

/-! # What a rendered page mentions

The identifiers that stand on a rendered page, each with what the page says of it at that
place, and what it is for them to be described by the references of the page.
-/

namespace Concordance.Rendered

inductive Lead where
  | page
  | web
  | nowhere
  deriving Repr, DecidableEq

/-- Whether there is anything to follow. -/
def Lead.isLive : Lead → Bool
  | page | web => true
  | nowhere => false

def Reference.lead : Reference → Lead
  | link _ _ _ => .web
  | topic _ _ _ _ _ _ => .page
  | unresolved _ _ => .nowhere

/-- An identifier on a page. -/
inductive Mention where
  /-- In a group of pages. -/
  | entry (identifier : String)
  /-- As a link in running text, which is active or not. -/
  | link (identifier : String) (isActive : Bool)
  /-- On the way down to the page, or among related symbols. -/
  | name (identifier : String)
  deriving Repr, DecidableEq

def Mention.identifier : Mention → String
  | entry identifier => identifier
  | link identifier _ => identifier
  | name identifier => identifier

def Inline.mentions : Inline → List Mention
  | code _ | text _ => []
  | reference identifier isActive _ => [.link identifier isActive]

def Block.mentions : Block → List Mention
  | code _ _ | heading _ _ _ => []
  | orderedList items | unorderedList items =>
      items.flatMap fun item => item.flatMap Inline.mentions
  | paragraph content => content.flatMap Inline.mentions

def Section.mentions : Section → List Mention
  | content blocks => blocks.flatMap Block.mentions
  | declarations _ => []

def Group.mentions (g : Group) : List Mention := g.identifiers.map .entry

def Relations.mentions (s : Relations) : List Mention := s.identifiers.map .name

def Chapter.mentions (c : Chapter) : List Mention :=
  c.content.flatMap Block.mentions ++ c.steps.flatMap fun step => step.flatMap Inline.mentions

def Reference.mentions : Reference → List Mention
  | link _ _ _ | unresolved _ _ => []
  | topic summary _ _ _ _ _ => summary.flatMap Inline.mentions

namespace Page

/-- What a page mentions, but for its references. -/
def mentions (p : Page) : List Mention :=
  p.summary.flatMap Inline.mentions ++ p.hierarchy.flatten.map .name
    ++ p.sections.flatMap Section.mentions ++ p.relations.flatMap Relations.mentions
    ++ p.chapters.flatMap Chapter.mentions ++ p.seeAlso.flatMap Group.mentions
    ++ p.topics.flatMap Group.mentions

/-- Whatever the page mentions is among its references, each of which stands under its own
identifier. -/
structure SelfContained (p : Page) : Prop where
  mentions : ∀ m ∈ p.mentions, p.references.has m.identifier = true
  summaries : ∀ entry ∈ p.references, ∀ m ∈ entry.2.mentions,
    p.references.has m.identifier = true
  own : ∀ entry ∈ p.references, entry.2.identifier = entry.1

end Page

/-- What a page says at a place agrees with its references: a link is active if and only if there is
anything to follow, and groups list pages. -/
def Mention.Fits (references : References) : Mention → Prop
  | entry identifier => ∃ reference, references.get? identifier = some reference ∧
      reference.lead = .page
  | link identifier isActive => isActive = true ↔ ∃ reference,
      references.get? identifier = some reference ∧ reference.lead.isLive = true
  | name _ => True

/-- What a page says of an identifier agrees with its references, wherever it stands. -/
def Page.AgreesAt (p : Page) (identifier : String) : Prop :=
  ∀ m ∈ p.mentions, m.identifier = identifier → m.Fits p.references

end Concordance.Rendered
