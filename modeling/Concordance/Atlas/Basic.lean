import Concordance.Atlas.Page

/-! # The atlas of a bundle

All pages of one bundle in order of their addresses, with the indexes by which they
are found. Every address in an index is that of a page.
-/

namespace Concordance

/-- The pages of a bundle. -/
structure Atlas where
  bundle : String
  pages : Assoc Address Page := []
  /-- The pages by the text of their human paths. -/
  byHumanPath : Assoc String (List Address) := []
  /-- The pages of symbols by their unique identifiers. -/
  byPrecise : Assoc String Address := []
  /-- The pages below a page, in the order in which they came. -/
  below : Assoc Address (List Address) := []
  /-- The root pages of modules. -/
  roots : List Address := []
  deriving Repr, DecidableEq

namespace Atlas

def address (a : Atlas) (path : List String) : Address := { bundle := a.bundle, path }

/-- The page that an address names, or that holds the heading it names. -/
def page? (a : Atlas) (address : Address) : Option Page := a.pages.get? address.page

def ofPrecise? (a : Atlas) (precise : String) : Option Page :=
  (a.byPrecise.get? precise).bind a.pages.get?

def pageList (a : Atlas) : List Page := a.pages.values

def children (a : Atlas) (address : Address) : List Address :=
  (a.below.get? address).getD []

/-- A page and those that hold it, from the inside outwards, but no more than a given number. -/
def lineageWithin (a : Atlas) : Nat → Address → List Address
  | 0, _ => []
  | bound + 1, address =>
      address :: match (a.page? address).bind Page.parent with
        | some parent => lineageWithin a bound parent
        | none => []

/-- A page and those that hold it, from the inside outwards. A page's path is longer than that of
the page that holds it. -/
def lineage (a : Atlas) (address : Address) : List Address :=
  a.lineageWithin (address.path.length + 1) address

/-- Whether a module of this name is documented here. -/
def isLocalModule (a : Atlas) (name : String) : Bool :=
  a.roots.any fun root => root.path.head? == some name

def humanPaths (a : Atlas) : List String := a.byHumanPath.keys

/-- The pages that are shown, in order. -/
def shown (a : Atlas) : List Page := a.pageList.filter fun p => p.kind != .redirect

/-- The summaries of all pages that other bundles may link to, in order. -/
def entities (a : Atlas) : List Entity := a.shown.map Page.entity

/-- Append to the list that a key stands for. -/
def append {κ : Type} [BEq κ] [Ord κ] (m : Assoc κ (List Address)) (key : κ) (address : Address) :
    Assoc κ (List Address) :=
  m.put key ((m.get? key).getD [] ++ [address])

/-- Insert a page, unless its address is taken. -/
def insert? (a : Atlas) (p : Page) : Option Atlas :=
  if a.pages.has p.address then none
  else some { a with
    pages := a.pages.put p.address p
    byHumanPath := append a.byHumanPath p.humanText p.address
    byPrecise := match p.content.symbol? with
      | some content => a.byPrecise.put content.precise p.address
      | none => a.byPrecise
    below := match p.parent with
      | some parent => append a.below parent p.address
      | none => a.below
    roots := match p.parent with
      | some _ => a.roots
      | none => a.roots ++ [p.address] }

def editContent (a : Atlas) (address : Address) (f : Content → Content) : Atlas :=
  { a with pages := a.pages.map fun (key, p) =>
      if key == address then (key, { p with content := f p.content }) else (key, p) }

/-- The entries of the indexes that name no page. -/
def dangling (a : Atlas) : List String :=
  let check (index : String) (address : Address) : List String :=
    if a.pages.has address then [] else [index ++ ": " ++ address.identifier]
  a.byHumanPath.flatMap (fun (_, addresses) => addresses.flatMap (check "by_human_path"))
    ++ a.byPrecise.flatMap (fun (_, address) => check "by_precise" address)
    ++ a.below.flatMap (fun (parent, addresses) =>
        check "children (parent)" parent ++ addresses.flatMap (check "children"))
    ++ a.roots.flatMap (check "roots")

end Atlas

end Concordance
