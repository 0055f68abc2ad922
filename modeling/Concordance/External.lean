import Concordance.Entity

/-! # Other bundles

What a build knows about the bundles that it links to but does not contain. A
bundle is asked for a link at most once per text, so every question is recorded,
and the record tells which pages the build has links to.
-/

namespace Concordance

/-- What answers links into another bundle. The answer depends on nothing but the link. -/
structure Responder where
  bundle : String
  /-- Whether the bundle documents a module. -/
  covers : String → Bool
  answer : WrittenLink → Resolution

/-- Whether a link leads into the bundle: it names the bundle, or else starts with one of its
modules. -/
def Responder.claims (r : Responder) (link : WrittenLink) : Bool :=
  match link.bundle, link.components.head? with
  | some bundle, _ => r.bundle == bundle
  | none, some module => r.covers module
  | none, none => false

/-- Those that answer links. Where several could answer, the first one does. -/
abbrev Responders := List Responder

/-- The first that a link is for, with its place. -/
def Responders.claimant? (rs : Responders) (link : WrittenLink) : Option (Responder × Nat) :=
  rs.zipIdx.find? fun (r, _) => r.claims link

/-- What has summaries of a bundle's pages. The answer depends on nothing but the page, and nobody
is asked anew. -/
structure Informant where
  bundle : String
  entity? : Address → Option Entity

/-- Those that have summaries. Of those of one bundle, the first one is asked. -/
abbrev Informants := List Informant

def Informants.entity? (is : Informants) (address : Address) : Option Entity :=
  (is.find? fun i => i.bundle == address.bundle).bind fun i => i.entity? address

/-- A media file that another bundle serves. -/
structure Asset where
  /-- The name it is asked for by. -/
  name : String
  url : String
  deriving Repr, DecidableEq

/-- Another bundle. -/
structure External where
  bundle : String
  /-- The modules that it documents. -/
  modules : List String := []
  /-- The summaries of its pages, by their paths. -/
  entities : Assoc (List String) Entity := []
  /-- The addresses of its media, by their names. -/
  assets : Assoc String String := []
  deriving Repr, DecidableEq

namespace External

/-- The bundle that a list of summaries describes. Summaries of pages elsewhere are passed over. -/
def ofEntities (bundle : String) (modules : List String) (entities : List Entity)
    (assets : Assoc String String) : External where
  bundle := bundle
  modules := modules
  entities := Assoc.ofList ((entities.filter fun e => e.reference.bundle == bundle).map fun e =>
    (e.reference.path, e))
  assets := assets

def covers (e : External) (module : String) : Bool := e.modules.contains module

/-- The bundle's answer to a link. The link has to name the path of a page in full. -/
def answer (e : External) (link : WrittenLink) : Resolution :=
  match e.entities.get? link.components with
  | some entity => .ok (match link.fragment with
      | some fragment => entity.reference.withFragment fragment
      | none => entity.reference)
  | none => .error {
      kind := .external e.bundle
      message := s!"`{link.displayPath}` doesn't exist in {e.bundle}"
      link := link.text }

def responder (e : External) : Responder where
  bundle := e.bundle
  covers := e.covers
  answer := e.answer

def asset? (e : External) (name : String) : Option Asset :=
  (e.assets.get? name).map fun url => { name, url }

end External

/-- A question to another bundle. -/
structure Inquiry where
  /-- The place of the bundle among all. -/
  place : Nat
  /-- The link that it was asked for. -/
  link : WrittenLink
  deriving Repr, DecidableEq

/-- The summary of a page that the bundle, which has a place among all, was asked for. -/
def External.entity? (e : External) (place : Nat) (inquiries : List Inquiry) (address : Address) :
    Option Entity := do
  let entity ← e.entities.get? address.path
  if entity.reference == address.page
      && inquiries.any (fun q => q.place == place && q.link.components == address.path)
  then some entity else none

/-- The other bundles of a build. -/
abbrev Externals := List External

namespace Externals

/-- The first bundle that a link leads into, with its place. -/
def claimant? (es : Externals) (link : WrittenLink) : Option (External × Nat) :=
  es.zipIdx.find? fun (e, _) => e.responder.claims link

def ofBundle? (es : Externals) (bundle : String) : Option (External × Nat) :=
  es.zipIdx.find? fun (e, _) => e.bundle == bundle

def entity? (es : Externals) (inquiries : List Inquiry) (address : Address) : Option Entity := do
  let (e, place) ← es.ofBundle? address.bundle
  e.entity? place inquiries address

/-- The bundles as those that have summaries of the pages that they were asked for. -/
def informants (es : Externals) (inquiries : List Inquiry) : Informants :=
  es.zipIdx.map fun (e, place) => { bundle := e.bundle, entity? := e.entity? place inquiries }

def asset? (es : Externals) (name : String) : Option Asset :=
  es.findSome? fun e => e.asset? name

/-- How often each bundle was asked. -/
def calls (es : Externals) (inquiries : List Inquiry) : List Nat :=
  es.zipIdx.map fun (_, place) => inquiries.countP fun q => q.place == place

end Externals

end Concordance
