import Concordance.Markup.Basic

/-! # Content of pages

What a page can be: an article, a symbol, a tutorial, or a stub that forwards to
another page.
-/

namespace Concordance

/-- Since when, and until when, something is there on a platform. -/
structure Availability where
  /-- The version that advised against it. -/
  deprecated : Option String := none
  /-- The version that brought it. -/
  introduced : Option String := none
  platform : String
  deriving Repr, DecidableEq

structure SymbolKind where
  displayName : String
  /-- Its identifier, without any language. -/
  identifier : String
  deriving Repr, DecidableEq

/-- How a symbol looks in one language. -/
structure Presentation where
  language : String
  title : String
  declaration : String
  deriving Repr, DecidableEq

/-- How one symbol relates to another. -/
inductive RelationKind where
  | conformsTo
  | inheritsFrom
  deriving Repr, DecidableEq

namespace RelationKind

/-- The title of the section that lists such relations. -/
def title : RelationKind → String
  | conformsTo => "Conforms To"
  | inheritsFrom => "Inherits From"

/-- The identifier of that section, and of the relation in a symbol graph. -/
def identifier : RelationKind → String
  | conformsTo => "conformsTo"
  | inheritsFrom => "inheritsFrom"

/-- All kinds, in the order in which they are shown. -/
def all : List RelationKind := [conformsTo, inheritsFrom]

def ofIdentifier? (s : String) : Option RelationKind :=
  all.find? fun kind => kind.identifier == s

end RelationKind

structure Relation where
  kind : RelationKind
  target : Link
  deriving Repr, DecidableEq

/-- What the page of a symbol holds. -/
structure SymbolContent where
  /-- The identifier that is unique to it. -/
  precise : String
  kind : SymbolKind
  module : String
  primary : Presentation
  /-- How it looks in other languages. -/
  variants : List Presentation := []
  /-- Its prose. -/
  docs : Markup := {}
  availability : List Availability := []
  relations : List Relation := []
  deriving Repr, DecidableEq

/-- What a page holds. -/
inductive Content where
  | article (title : String) (docs : Markup)
  /-- Nothing but the page to which links to this one lead. It is never shown. -/
  | redirect (title : String) (target : WrittenLink)
  | symbol (content : SymbolContent)
  | tutorial (content : Tutorial)
  deriving Repr, DecidableEq

namespace Content

def title : Content → String
  | article title _ => title
  | redirect title _ => title
  | symbol content => content.primary.title
  | tutorial content => content.title

/-- The first paragraph. -/
def summary : Content → Inlines
  | article _ docs => docs.summary
  | redirect _ _ => []
  | symbol content => content.docs.summary
  | tutorial content => content.summary

/-- The fragments that links may name. -/
def anchors : Content → List String
  | article _ docs => docs.anchors
  | redirect _ _ => []
  | symbol content => content.docs.anchors
  | tutorial content => content.sections.flatMap TutorialSection.anchors

def isRedirect : Content → Bool
  | redirect _ _ => true
  | _ => false

def isTutorial : Content → Bool
  | tutorial _ => true
  | _ => false

def symbol? : Content → Option SymbolContent
  | symbol content => some content
  | _ => none

/-- The relation with something done to its link. -/
def traverseRelation {m : Type → Type} [Monad m] (f : Link → m Link) (r : Relation) :
    m Relation := do
  return { r with target := ← f r.target }

/-- Do something to every link that the page shows, in reading order. -/
def traverseLinks {m : Type → Type} [Monad m] (f : Link → m Link) : Content → m Content
  | article title docs => do return article title (← docs.traverseLinks f)
  | redirect title target => pure (redirect title target)
  | symbol content => do
      let docs ← content.docs.traverseLinks f
      let relations ← content.relations.mapM (traverseRelation f)
      return symbol { content with docs, relations }
  | tutorial content => do return tutorial (← content.traverseLinks f)

/-- The links that the page shows, in reading order. -/
def links : Content → List Link
  | article _ docs => docs.links
  | redirect _ _ => []
  | symbol content => content.docs.links ++ content.relations.map Relation.target
  | tutorial content => content.links

end Content

end Concordance
