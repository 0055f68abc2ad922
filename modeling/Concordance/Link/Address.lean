import Concordance.Link.Written
import Concordance.Text.Slug

/-! # Addresses of pages

The identity of a page or of a heading on it, with its two printed forms: the
identifier that links can be written with, and the address on the site.
-/

namespace Concordance

/-- Where a link leads: a page of a bundle, and perhaps a heading on it. -/
structure Address where
  bundle : String
  /-- The canonical path of the page, module first. -/
  path : List String
  /-- The heading's slug. -/
  fragment : Option String := none
  deriving Repr, DecidableEq, Inhabited

namespace Address

/-- Addresses are ordered by bundle, then path, then fragment; no fragment comes first. -/
instance : Ord Address :=
  ⟨compareLex (compareOn bundle) (compareLex (compareOn path) (compareOn fragment))⟩

/-- Whether one address comes before another or equals it. -/
def le (a b : Address) : Bool :=
  (compare a b).isLE

/-- The same page with another heading, given by any text of that slug. A text without a slug
names the page itself. -/
def withFragment (a : Address) (text : String) : Address :=
  let s := Text.slug text
  { a with fragment := if s == "" then none else some s }

/-- The page that holds the heading. -/
def page (a : Address) : Address :=
  { a with fragment := none }

/-- The page one level up, if the path is longer than one. -/
def parent? (a : Address) : Option Address :=
  match a.path.dropLast with
  | [] => none
  | ancestors => some { bundle := a.bundle, path := ancestors }

def pathText (a : Address) : String :=
  "/".intercalate a.path

def fragmentText (a : Address) : String :=
  match a.fragment with
  | none => ""
  | some f => "#" ++ f

/-- The identifier that names the address in links and in rendered pages. -/
def identifier (a : Address) : String :=
  WrittenLink.topicScheme ++ "://" ++ a.bundle ++ "/" ++ WrittenLink.documentationRoot ++ "/"
    ++ a.pathText ++ a.fragmentText

/-- The address on the site, where tutorials have a root of their own. -/
def url (a : Address) (tutorial : Bool) : String :=
  "/" ++ (if tutorial then WrittenLink.tutorialsRoot else WrittenLink.documentationRoot) ++ "/"
    ++ Text.lower a.pathText ++ a.fragmentText

def ofIdentifier (identifier : String) : Except MalformedLink Address := do
  let link ← WrittenLink.parse identifier
  match link.bundle with
  | none => .error ⟨identifier, .notIdentifier⟩
  | some bundle =>
      let page : Address := { bundle, path := link.components }
      .ok (match link.fragment with
        | none => page
        | some fragment => page.withFragment fragment)

end Address

end Concordance
