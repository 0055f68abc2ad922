import Mathlib
import Concordance.Proofs.Atlas.Contents
import Concordance.Proofs.External
import Concordance.Proofs.Resolver.Session

/-! # Where success leads

An address in the bundle is that of a page which is shown, or of a heading on it. Any
other address is the answer of another bundle, carried back through the pages that
forward to it.
-/

namespace Concordance

/-- An address of a page that is shown, or of a heading on it. -/
def Atlas.Shows (a : Atlas) (address : Address) : Prop :=
  ∃ page, a.pages.get? address.page = some page ∧ page.address = address.page ∧
    page.kind ≠ .redirect ∧ page.content.isRedirect = false ∧
    ∀ fragment, address.fragment = some fragment → fragment ∈ page.content.anchors

/-- A page with the fragment of the link in the place of any other. -/
def WrittenLink.carry (link : WrittenLink) (address : Address) : Address :=
  match link.fragment with
  | none => address.page
  | some fragment => address.page.withFragment fragment

namespace WrittenLink

variable (link : WrittenLink) (address : Address)

@[simp] theorem carry_page : (link.carry address).page = address.page := by
  simp only [carry]
  split
  · rfl
  · exact Address.withFragment_page _ _

@[simp] theorem carry_bundle : (link.carry address).bundle = address.bundle := by
  simp only [carry]
  split
  · rfl
  · exact Address.withFragment_bundle _ _

end WrittenLink

namespace Resolver

variable {r : Resolver} {link : WrittenLink} {referrer : Option Address} {m : Memory}
  {outcome : Resolution} {address target : Address} {page : Page}

/-- What other bundles answer, directly or at the end of pages that forward. -/
inductive Answered (r : Resolver) : WrittenLink → Option Address → Address → Prop where
  /-- The link fits no page here, and is put to another bundle. -/
  | asked {link : WrittenLink} {referrer : Option Address} {responder : Responder} {place : Nat}
      {address : Address} (nowhere : r.lookupLocally link referrer = .notFound)
      (claimed : r.claimant? link = some (responder, place))
      (registered : responder ∈ r.responders) (answer : responder.answer link = .ok address) :
      Answered r link referrer address
  /-- The link arrives at a page that forwards to a link which is answered. -/
  | forwarded {link target : WrittenLink} {referrer : Option Address} {page : Page}
      {address : Address} (stub : r.stub? link referrer = some (page, target))
      (rest : Answered r target (some page.address) address) :
      Answered r link referrer (link.carry address)

theorem withFragment_ok (found : r.withFragment link target.page = .ok address) :
    address = link.carry target ∧ ∀ page, r.atlas.pages.get? target.page = some page →
      ∀ fragment, address.fragment = some fragment → fragment ∈ page.content.anchors := by
  simp only [withFragment] at found
  cases written : link.fragment with
  | none =>
      simp only [written] at found
      cases found
      refine ⟨by rw [WrittenLink.carry, written], fun _ _ fragment named => ?_⟩
      cases named
  | some text =>
      simp only [written, Atlas.page?, Address.page_page] at found
      obtain ⟨known, found⟩ | ⟨_, found⟩ := ite_eq_iff.mp found
      case inr => cases found
      cases found
      refine ⟨by rw [WrittenLink.carry, written], fun page there fragment named => ?_⟩
      simp only [there] at known
      simp only [Address.withFragment] at named
      split at named
      · cases named
      · cases named
        exact List.contains_iff_mem.mp known

theorem shows_of_withFragment (there : r.atlas.pages.get? target.page = some page)
    (own : page.address = target.page) (kind : page.kind ≠ .redirect)
    (stays : page.content.isRedirect = false)
    (found : r.withFragment link target.page = .ok address) : r.atlas.Shows address := by
  obtain ⟨same, anchors⟩ := withFragment_ok found
  have here : address.page = target.page := by rw [same, WrittenLink.carry_page]
  exact ⟨page, here ▸ there, here ▸ own, kind, stays, anchors page there⟩

/-- Where a link may arrive: at a page shown here, or at one that another bundle answered with. -/
structure Arrives (r : Resolver) (link : WrittenLink) (referrer : Option Address)
    (address : Address) : Prop where
  here : address.bundle = r.atlas.bundle → r.atlas.Shows address
  elsewhere : address.bundle ≠ r.atlas.bundle → r.Answered link referrer address

theorem arrives_at_page (made : r.atlas.Made) (notUrl : link.isUrl = false)
    (last : r.stub? link referrer = none) (found : r.lookupLocally link referrer = .found page)
    (outcome : r.withFragment link page.address = .ok address) : r.Arrives link referrer address := by
  have there := made.wellFormed.get?_address (lookupLocally_mem found)
  have placed : r.atlas.address page.address.path = page.address :=
    made.wellFormed.address_path (Option.isSome_of_eq_some there)
  have plain : page.address.page = page.address := made.wellFormed.page_self there
  have stays : page.content.isRedirect = false := by
    simp only [stub?, notUrl, Bool.false_eq_true, if_false, found] at last
    cases content : page.content with
    | redirect title target =>
        rw [content] at last
        cases last
    | article | symbol | tutorial => rfl
  have kind : page.kind ≠ .redirect := by
    rw [ne_eq, (made.suited there).forwards, stays]
    decide
  rw [← plain] at there outcome
  have shows := shows_of_withFragment there plain.symm kind stays outcome
  refine ⟨fun _ => shows, fun different => absurd ?_ different⟩
  obtain ⟨same, _⟩ := withFragment_ok outcome
  rw [same, WrittenLink.carry_bundle, ← placed]
  rfl

/-- What a link leads to, if to an address at all. The induction is on the pages that forward. -/
theorem Leads.arrives (made : r.atlas.Made)
    (own : ∀ responder ∈ r.responders, ∀ link address, responder.answer link = .ok address →
      address.bundle ≠ r.atlas.bundle)
    (leads : r.Leads link referrer outcome) (success : outcome = .ok address) :
    r.Arrives link referrer address := by
  induction leads generalizing address with
  | @ends link referrer last =>
      simp only [direct] at success
      split at success
      · cases success
      · rename_i notUrl
        split at success
        · rename_i page found
          exact arrives_at_page made (by simpa using notUrl) last found success
        · cases success
        · rename_i nowhere
          split at success
          · rename_i responder place claimed
            have registered := claimant?_mem claimed
            exact ⟨fun here => absurd here (own responder registered link address success),
              fun _ => .asked nowhere claimed registered success⟩
          · cases success
  | @forwards link target referrer page outcome stub rest ih =>
      cases outcome with
      | error failure => cases success
      | ok target =>
          have arrives := ih rfl
          obtain ⟨same, _⟩ := withFragment_ok success
          constructor
          · intro here
            rw [same, WrittenLink.carry_bundle] at here
            obtain ⟨shown, there, own, kind, stays, _⟩ := arrives.here here
            exact shows_of_withFragment there own kind stays success
          · intro different
            rw [same, WrittenLink.carry_bundle] at different
            exact same ▸ .forwarded stub (arrives.elsewhere different)

theorem Right.ok_leads (right : r.Right link referrer (.ok address)) :
    r.Leads link referrer (.ok address) := by
  rcases right with leads | ⟨_, text, cyclic⟩
  · exact leads
  · cases cyclic

/-- Success is sound: an address in the bundle is one of a page that is shown, or of a heading on
it, and any other is what another bundle answered. -/
theorem resolve_success (made : r.atlas.Made) (apart : r.Apart)
    (described : ∀ responder ∈ r.responders, ∃ e : External, e.Described ∧ responder = e.responder)
    (reached : r.Reached m) (parsed : link.Parsed) (referrer : Option Address)
    (success : (r.resolve link referrer m).1 = .ok address) :
    (address.bundle = r.atlas.bundle → r.atlas.Shows address) ∧
      (address.bundle ≠ r.atlas.bundle →
        r.Answered link (referrer.map Address.page) address) := by
  have right := ((reached.settled made apart).meets made apart parsed referrer).right
  rw [success] at right
  have own (responder : Responder) (member : responder ∈ r.responders) (link : WrittenLink)
      (address : Address) (answer : responder.answer link = .ok address) :
      address.bundle ≠ r.atlas.bundle := by
    have different := apart responder member
    obtain ⟨e, described, rfl⟩ := described responder member
    rw [(described.answer answer).1]
    exact different
  have arrives := right.ok_leads.arrives made own rfl
  exact ⟨arrives.here, arrives.elsewhere⟩

theorem resolve_success_other :
    let other : External := .ofEntities "com.example.other" ["Other"] [{
      summary := "Things.", availability := [], kind := "symbol"
      reference := { bundle := "com.example.other", path := ["Other", "Thing"] }
      role := "class", title := "Thing", url := "/documentation/other/thing" }] []
    let inputs : Inputs := { symbolGraphs := [⟨"Kit.symbols.json", {
      module := "Kit"
      symbols := [{
        language := "swift", precise := "s:Part", kindName := "Class"
        kindIdentifier := "swift.class", title := "Part", path := ["Part"] }] }⟩] }
    let r : Resolver := { atlas := (Atlas.build {} inputs).1, responders := [other.responder] }
    let near : WrittenLink := ⟨false, none, ["Part"], none, "Part", .symbol⟩
    let part : Address := { bundle := "com.example.documentation", path := ["Kit", "Part"] }
    let far : WrittenLink := ⟨false, none, ["Other", "Thing"], some "Uses", "Other/Thing#Uses", .path⟩
    let uses : Address :=
      { bundle := "com.example.other", path := ["Other", "Thing"], fragment := some "uses" }
    let m := (r.resolve near none {}).2
    ((r.resolve near none {}).1 = .ok part ∧ r.atlas.Shows part) ∧
      (r.resolve far none m).1 = .ok uses ∧ r.Answered far none uses := by
  intro other inputs r near part far uses m
  have here : (r.resolve near none {}).1 = .ok part := by decide +kernel +revert
  have there : (r.resolve far none m).1 = .ok uses := by decide +kernel +revert
  have made : r.atlas.Made := .built {} inputs
  have own : r.atlas.bundle = "com.example.documentation" := (Atlas.build_steps {} inputs).bundle
  have apart : r.Apart := apart_of_built rfl fun responder member => by
    rw [List.mem_singleton.mp member]
    decide
  have described : ∀ responder ∈ r.responders, ∃ e : External, e.Described ∧ responder = e.responder :=
    fun responder member => ⟨other, ⟨_, _, _, _, rfl⟩, List.mem_singleton.mp member⟩
  have nearParsed : near.Parsed := ⟨"Part", by decide +kernel⟩
  have farParsed : far.Parsed := ⟨"Other/Thing#Uses", by decide +kernel⟩
  have shown := (resolve_success made apart described .start nearParsed none here).1
  have answered := (resolve_success made apart described (.link .start nearParsed none) farParsed
    none there).2
  exact ⟨⟨here, shown own.symm⟩, there, answered (by rw [own]; decide)⟩

end Resolver

end Concordance
