import Concordance.Atlas.Lookup
import Concordance.External
import Concordance.Resolver.Cache

/-! # Resolving links

A link is looked up from the page it stands on outwards, then from the roots, and
is then put to the one other bundle that it leads into. Pages that forward are
followed to their targets, and a fragment has to name a heading of the page.
-/

namespace Concordance

structure Resolver where
  atlas : Atlas
  /-- Those that answer for other bundles. -/
  responders : Responders := []
  /-- The modules into which links are expected to fail. -/
  unresolvable : List String := []

namespace Resolver

/-- What resolving has found out so far. -/
structure Memory where
  cache : Cache := {}
  /-- The questions put to other bundles, the latest first. -/
  inquiries : List Inquiry := []

/-- Keep an outcome, and take the mark off its key. -/
def Memory.settle (m : Memory) (key : CacheKey) (outcome : Resolution) : Resolution × Memory :=
  let (stored, cache) := m.cache.insert key outcome
  (stored, { m with cache := cache.finish key })

/-- Put a link to another bundle, unless that was done before. -/
def Memory.ask (m : Memory) (responder : Responder) (place : Nat) (link : WrittenLink) :
    Resolution × Memory :=
  let key : CacheKey := { bundle := responder.bundle, text := link.text, scope := none }
  let (answer, cache) := m.cache.getOrInsert key (responder.answer link)
  (answer.outcome, {
    cache
    inquiries := if answer.made then ⟨place, link⟩ :: m.inquiries else m.inquiries })

/-- The key of a link that stands on a page. The page does not matter for links that are read from
the roots or that name a bundle. -/
def key (r : Resolver) (link : WrittenLink) (referrer : Option Address) : CacheKey where
  bundle := r.atlas.bundle
  text := link.text
  scope := if link.absolute || link.bundle.isSome then none else referrer

/-- Whether a link can lead to a page of the bundle. -/
def isLocal (r : Resolver) (link : WrittenLink) : Bool :=
  link.bundle.all (· == r.atlas.bundle)

/-- Whether a link starts with a name that is no module of the bundle. -/
def startsElsewhere (r : Resolver) (link : WrittenLink) : Bool :=
  link.components.head?.any fun first => !r.atlas.isLocalModule first

/-- The bundle that a link is put to when nothing here fits it, with its place. -/
def claimant? (r : Resolver) (link : WrittenLink) : Option (Responder × Nat) :=
  if !r.isLocal link || r.startsElsewhere link then r.responders.claimant? link else none

/-- Where a link is looked up, in order. A relative link is looked up below its page and all that
hold it, then from the roots. A relative link that stands nowhere, and an absolute one that does
not start with a module, are also looked up inside each module. -/
def scopes (r : Resolver) (link : WrittenLink) (referrer : Option Address) :
    List (Option Address) :=
  let outwards := match referrer with
    | some page => if link.absolute then [] else (r.atlas.lineage page).map some
    | none => []
  let insideModules := if link.absolute then r.startsElsewhere link else referrer.isNone
  outwards ++ [none] ++ if insideModules then r.atlas.roots.map some else []

/-- What the first scope gives in which anything fits. -/
def lookupWithin (r : Resolver) (components : List String) : List (Option Address) → Lookup
  | [] => .notFound
  | scope :: rest =>
      match r.atlas.lookup scope components with
      | .notFound => lookupWithin r components rest
      | result => result

def lookupLocally (r : Resolver) (link : WrittenLink) (referrer : Option Address) : Lookup :=
  if r.isLocal link then r.lookupWithin link.components (r.scopes link referrer) else .notFound

/-- The failure of a web address, which is no link to a page. -/
def urlFailure (link : WrittenLink) : Failure :=
  .unresolved link.text s!"`{link.text}` is a web URL, not a documentation link"

/-- As many of the last parts of a path as a link has components. -/
def tail (depth : Nat) (path : String) : String :=
  let parts := Text.pieces '/' path
  "/".intercalate (parts.drop (parts.length - depth))

/-- The failure of a link that leads to no page. It has a remark if that is as intended, and
otherwise a suggestion if the path resembles a known one. -/
def notFound (r : Resolver) (link : WrittenLink) : Failure :=
  let failure := Failure.unresolved link.text s!"`{link.displayPath}` doesn't exist"
  match link.components.head?.filter r.unresolvable.contains with
  | some module =>
      { failure with note := some s!"`{module}` is listed as unresolvable for this project" }
  | none =>
      let tails := r.atlas.humanPaths.map (tail link.components.length)
      { failure with suggestion := (Text.nearest link.displayPath tails).head? }

/-- The address of a page with the fragment of a link, which has to name a heading. Headings of
pages of other bundles are not known, and taken for granted. -/
def withFragment (r : Resolver) (link : WrittenLink) (target : Address) : Resolution :=
  match link.fragment with
  | none => .ok target
  | some fragment =>
      let known := match r.atlas.page? target with
        | some page => page.content.anchors.contains (Text.slug fragment)
        | none => true
      if known then .ok (target.withFragment fragment)
      else .error (.unresolved link.text s!"`#{fragment}` isn't a heading on `{target.pathText}`")

/-- The way in which links that pages forward to are resolved. -/
abbrev Follow := WrittenLink → Option Address → Memory → Resolution × Memory

/-- Arrive at a page that a link fits: go on to the page that it forwards to, if it does. -/
def arrive (r : Resolver) (follow : Follow) (link : WrittenLink) (page : Page) (m : Memory) :
    Resolution × Memory :=
  match page.content with
  | .redirect _ target =>
      match follow target (some page.address) m with
      | (.ok address, m) => (r.withFragment link address.page, m)
      | (.error failure, m) => (.error failure, m)
  | _ => (r.withFragment link page.address, m)

/-- Resolve a link whose outcome is not known. -/
def decide (r : Resolver) (follow : Follow) (link : WrittenLink) (referrer : Option Address)
    (m : Memory) : Resolution × Memory :=
  match r.lookupLocally link referrer with
  | .found page => r.arrive follow link page m
  | .ambiguous candidates => (.error (.ambiguous link.text candidates), m)
  | .notFound =>
      match r.claimant? link with
      | some (responder, place) => m.ask responder place link
      | none => (.error (r.notFound link), m)

/-- Resolve a link, following pages that forward up to a given depth. -/
def resolveWithin (r : Resolver) : Nat → Follow
  | 0, link, _, m => (.error (.cyclic link.text), m)
  | depth + 1, link, referrer, m =>
      if link.isUrl then (.error (urlFailure link), m)
      else
        let key := r.key link referrer
        match m.cache.get key with
        | (some outcome, cache) => (outcome, { m with cache })
        | (none, cache) =>
            match cache.begin? key with
            | none => (.error (.cyclic link.text), { m with cache })
            | some cache =>
                let (outcome, m) := r.decide (resolveWithin r depth) link referrer { m with cache }
                m.settle key outcome

/-- A depth that is never exhausted: beyond the link itself, each page that forwards is gone
through once, and one of them twice if they go round in circles. -/
def depth (r : Resolver) : Nat :=
  r.atlas.pageList.countP (fun p => p.content.isRedirect) + 2

/-- Resolve a link that stands on a page, or nowhere. -/
def resolve (r : Resolver) (link : WrittenLink) (referrer : Option Address) (m : Memory) :
    Resolution × Memory :=
  r.resolveWithin r.depth link (referrer.map Address.page) m

/-- What resolving the links of a page has found out so far. -/
structure Progress where
  memory : Memory
  /-- The failures on this page, in reading order. -/
  failures : List Failure := []

/-- Resolve a link of a page, unless that was done before. -/
def resolveLink (r : Resolver) (referrer : Address) (link : Link) : StateM Progress Link :=
  match link.destination with
  | .unresolved written => fun progress =>
      if written.isUrl then ({ link with destination := .url written.text }, progress)
      else match r.resolve written (some referrer) progress.memory with
        | (.ok address, memory) =>
            ({ link with destination := .resolved address }, { progress with memory })
        | (.error failure, memory) =>
            ({ link with destination := .failed failure },
              { memory, failures := progress.failures ++ [failure] })
  | _ => pure link

def resolveContent (r : Resolver) (referrer : Address) (content : Content) (m : Memory) :
    Content × Progress :=
  (content.traverseLinks (r.resolveLink referrer)).run { memory := m }

end Resolver

end Concordance
