import Concordance.Atlas.Distinction
import Concordance.Entity

/-! # Pages

A page of a bundle: its address, its place among the others, and its content.
-/

namespace Concordance

inductive PageKind where
  | article
  /-- The root page of a module. -/
  | module
  /-- A stub that forwards to another page. -/
  | redirect
  | symbol
  | tutorial
  deriving Repr, DecidableEq

def PageKind.name : PageKind → String
  | article => "article"
  | module => "module"
  | redirect => "redirect"
  | symbol => "symbol"
  | tutorial => "tutorial"

structure Page where
  /-- Its address, without a fragment. -/
  address : Address
  kind : PageKind
  /-- Its name: the last of its human path. -/
  name : String
  /-- The names from the module down to it, without suffixes. -/
  humanPath : List String
  /-- The page that holds it; module roots have none. -/
  parent : Option Address
  /-- What tells it apart from symbols of its name. -/
  distinction : Option Distinction := none
  /-- The file it comes from. -/
  source : Option String := none
  content : Content
  deriving Repr, DecidableEq

namespace Page

def title (p : Page) : String := p.content.title

def humanText (p : Page) : String := "/".intercalate p.humanPath

/-- The role: the kind of a symbol, and otherwise what the kind of page is called. -/
def role (p : Page) : String :=
  match p.kind, p.content with
  | .symbol, .symbol content => content.kind.identifier
  | .module, _ => "collection"
  | .tutorial, _ => "project"
  | kind, _ => kind.name

def url (p : Page) : String := p.address.url (p.kind == .tutorial)

/-- The summary for other bundles. -/
def entity (p : Page) : Entity where
  summary := Inlines.plainText p.content.summary
  availability := match p.content.symbol? with
    | some content => content.availability
    | none => []
  kind := p.kind.name
  reference := p.address
  role := p.role
  title := p.title
  url := p.url

end Page

end Concordance
