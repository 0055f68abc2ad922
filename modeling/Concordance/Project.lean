import Concordance.Atlas.Build
import Concordance.Lock
import Concordance.Renderer.Basic
import Concordance.Rendered.Variant
import Concordance.Resolver.Basic

/-! # Projects and their publication

A project is a bundle's atlas with what it links to. Publishing it resolves and
renders its pages one after the other, in order of their addresses; they share one
memory of resolutions and one store of references.
-/

namespace Concordance

open Rendered (References)

structure Project where
  settings : Settings
  /-- Its pages. -/
  atlas : Atlas
  externals : Externals := []
  /-- What was declined when its pages were collected. -/
  problems : List Problem := []

structure PublishedPage where
  address : Address
  kind : PageKind
  rendered : Rendered.Page

structure PageResult where
  page : PublishedPage
  /-- The pages of other bundles that it has links to. -/
  external : List Address
  /-- Its links that lead nowhere. -/
  problems : List Problem

/-- What publishing a project gives. -/
structure Publication where
  /-- The pages that are shown, in order. -/
  pages : List PublishedPage
  /-- The references to pages that any page uses. -/
  references : References
  /-- The summaries of the pages, for other bundles. -/
  entities : List Entity
  /-- The summaries of the pages of other bundles that any page has links to, in order. -/
  externalEntities : List Entity
  /-- The checksum of these summaries. -/
  checksum : String
  /-- What was declined, and then the links that lead nowhere, page by page. -/
  problems : List Problem
  cache : Cache

namespace Project

def ofInputs (settings : Settings) (inputs : Inputs) (externals : Externals) : Project :=
  let (atlas, problems) := Atlas.build settings inputs
  { settings, atlas, externals, problems }

/-- What the links of the project are resolved against. -/
def resolver (p : Project) : Resolver where
  atlas := p.atlas
  responders := p.externals.map External.responder
  unresolvable := p.settings.unresolvable

/-- What the pages of the project are rendered with, once other bundles were asked. -/
def renderer (p : Project) (inquiries : List Inquiry) : Renderer where
  atlas := p.atlas
  externals := p.externals.informants inquiries
  language := p.settings.language

/-- What all pages share. -/
structure Shared where
  /-- What is known of links. -/
  memory : Resolver.Memory := {}
  /-- The references to pages. -/
  store : References := []

/-- The page of another bundle that a resolved link leads to. -/
def externalTarget? (bundle : String) (link : Link) : Option Address :=
  match link.destination with
  | .resolved address => if address.bundle == bundle then none else some address.page
  | _ => none

def variants : Content → List Presentation
  | .symbol content => content.variants
  | _ => []

/-- The report of a link that leads nowhere, on the page that holds it. -/
def problemOn (page : Page) (failure : Failure) : Problem :=
  { Problem.ofFailure failure page.address.identifier with source := page.source }

/-- What publishing a page gives, by what it holds once its links are resolved, the failures among
them, and how it is rendered. -/
def report (p : Project) (page : Page) (content : Content) (failures : List Failure)
    (rendered : Rendered.Page) : PageResult where
  page := {
    address := page.address
    kind := page.kind
    rendered := { rendered with overrides := rendered.overridesFor (variants content) } }
  external := content.links.filterMap (externalTarget? p.atlas.bundle)
  problems := failures.map (problemOn page)

def publishPage (p : Project) (page : Page) (shared : Shared) : PageResult × Shared :=
  let (content, progress) := p.resolver.resolveContent page.address page.content shared.memory
  let renderer := p.renderer progress.memory.inquiries
  let (rendered, store) := renderer.render page content shared.store
  (p.report page content progress.failures rendered, { memory := progress.memory, store })

def publishPages (p : Project) : List Page → Shared → List PageResult × Shared
  | [], shared => ([], shared)
  | page :: rest, shared =>
      let (result, shared) := p.publishPage page shared
      let (results, shared) := publishPages p rest shared
      (result :: results, shared)

/-- The summaries of pages of other bundles, in order, each once. -/
def entitiesOf (p : Project) (inquiries : List Inquiry) (addresses : List Address) : List Entity :=
  (Assoc.ofListFirst (addresses.filterMap fun address =>
    (p.externals.entity? inquiries address).map fun e => (address, e))).values

/-- The publication that the results of all pages make, in order, with what the pages share. -/
def gather (p : Project) (results : List PageResult) (shared : Shared) : Publication where
  pages := results.map PageResult.page
  references := shared.store
  entities := p.atlas.entities
  externalEntities :=
    p.entitiesOf shared.memory.inquiries (results.flatMap PageResult.external)
  checksum := Entity.checksum
    (p.entitiesOf shared.memory.inquiries (results.flatMap PageResult.external))
  problems := p.problems ++ results.flatMap PageResult.problems
  cache := shared.memory.cache

/-- Publish all pages that are shown. -/
def publish (p : Project) : Publication :=
  let (results, shared) := p.publishPages p.atlas.shown {}
  p.gather results shared

end Project

namespace Publication

/-- The lock of the pages of other bundles that any page has links to. -/
def lock (p : Publication) : Lock := Lock.ofEntities p.externalEntities

end Publication

end Concordance
