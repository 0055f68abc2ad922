import Concordance.Content
import Concordance.Json.Patch

/-! # Rendered pages

A page as it is published: links are identifiers, and the page itself holds what
is shown of each page or address that they lead to.
-/

namespace Concordance.Rendered

inductive Inline where
  | code (text : String)
  /-- A link to what stands under an identifier, which is active if it leads anywhere. A title
  takes the place of the target's. -/
  | reference (identifier : String) (isActive : Bool) (title : Option String)
  | text (text : String)
  deriving Repr, DecidableEq

inductive Block where
  | code (lines : List String) (language : Option String)
  /-- A heading, with the fragment that names it. -/
  | heading (anchor : String) (level : UInt8) (text : String)
  | orderedList (items : List (List Inline))
  | paragraph (content : List Inline)
  | unorderedList (items : List (List Inline))
  deriving Repr, DecidableEq

structure Declaration where
  languages : List String
  text : String
  deriving Repr, DecidableEq

/-- A section of the main part of a page. -/
inductive Section where
  | content (blocks : List Block)
  | declarations (declarations : List Declaration)
  deriving Repr, DecidableEq

/-- Pages listed under one title. -/
structure Group where
  /-- Whether the group was made without its author. -/
  generated : Bool := false
  identifiers : List String
  title : String
  deriving Repr, DecidableEq

/-- The symbols that one symbol is related to in one way. -/
structure Relations where
  identifiers : List String
  kind : String
  title : String
  deriving Repr, DecidableEq

/-- A section of a tutorial. -/
structure Chapter where
  anchor : String
  content : List Block
  steps : List (List Inline)
  title : String
  deriving Repr, DecidableEq

/-- What is said about a page as a whole. -/
structure Metadata where
  module : Option String := none
  platforms : List Availability := []
  role : String
  /-- The line above the title. -/
  roleHeading : String
  symbolKind : Option String := none
  title : String
  deriving Repr, DecidableEq

/-- What makes the page for other languages out of the page. -/
structure Override where
  patch : Patch
  languages : List String

/-- What is shown of the target of a link. -/
inductive Reference where
  /-- A web address, which is its own identifier. -/
  | link (identifier title url : String)
  | topic (summary : List Inline) (identifier kind role title url : String)
  /-- What stands for a link that leads nowhere. -/
  | unresolved (identifier title : String)
  deriving Repr, DecidableEq

def Reference.identifier : Reference → String
  | link identifier _ _ => identifier
  | topic _ identifier _ _ _ _ => identifier
  | unresolved identifier _ => identifier

structure Page where
  /-- The first paragraph. -/
  summary : List Inline
  /-- The identifiers of the pages that hold it, from the module down, once for each way to it. -/
  hierarchy : List (List String)
  /-- The language that it is shown in. -/
  language : String
  identifier : String
  kind : String
  metadata : Metadata
  /-- The sections of its main part. -/
  sections : List Section := []
  /-- What is shown of the targets of its links, by identifier. -/
  references : Assoc String Reference := []
  relations : List Relations := []
  /-- The sections of the tutorial. -/
  chapters : List Chapter := []
  /-- The related pages. -/
  seeAlso : List Group := []
  /-- The pages below it. -/
  topics : List Group := []
  /-- What makes the pages for other languages out of it. -/
  overrides : List Override := []

end Concordance.Rendered
