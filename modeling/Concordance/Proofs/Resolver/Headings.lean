import Mathlib
import Concordance.Proofs.Atlas.Anchors
import Concordance.Proofs.Resolver.Pages
import Concordance.Proofs.Resolver.Success

/-! # Headings are found again

A fragment is compared by its slug, and a slug is its own slug. So the name of a heading,
and the fragment of an address that a link was resolved to, name the same heading again.
-/

namespace Concordance

namespace Address

variable {a : Address} {text fragment : String}

theorem withFragment_withFragment (a : Address) (one other : String) :
    (a.withFragment one).withFragment other = a.withFragment other := by
  simp only [withFragment]

theorem withFragment_slug (a : Address) (text : String) :
    a.withFragment (Text.slug text) = a.withFragment text := by
  rw [withFragment, withFragment, Text.slug_slug]

theorem slug_of_fragment_withFragment (named : (a.withFragment text).fragment = some fragment) :
    Text.slug text = fragment := by
  simp only [withFragment] at named
  split at named
  · cases named
  · exact Option.some.inj named

theorem withFragment_fragment (named : (a.withFragment text).fragment = some fragment) :
    a.withFragment fragment = a.withFragment text := by
  rw [← slug_of_fragment_withFragment named, withFragment_slug]

end Address

theorem External.answer_withFragment {e : External} {link : WrittenLink} {address : Address}
    {text : String} (answered : e.answer link = .ok address) (written : link.fragment = some text) :
    address = address.page.withFragment text := by
  simp only [answer, written] at answered
  split at answered
  · cases answered
    rw [Address.withFragment_page]
    rfl
  · cases answered

namespace Resolver

variable {r : Resolver} {link again : WrittenLink} {referrer : Option Address} {m : Memory}
  {outcome : Resolution} {address target : Address} {page : Page} {text fragment : String}

/-- On a page of the bundle just those fragments are found whose slugs name headings. -/
theorem withFragment_ok_iff (there : r.atlas.page? target = some page)
    (written : link.fragment = some text) :
    r.withFragment link target = .ok (target.withFragment text) ↔
      Text.slug text ∈ page.content.anchors := by
  simp only [withFragment, written, there, List.contains_iff_mem]
  split
  · rename_i known
    exact iff_of_true rfl known
  · rename_i unknown
    refine iff_of_false (fun found => ?_) unknown
    cases found

/-- Headings of pages elsewhere are taken for granted. -/
theorem withFragment_elsewhere (nowhere : r.atlas.page? target = none)
    (written : link.fragment = some text) :
    r.withFragment link target = .ok (target.withFragment text) := by
  simp only [withFragment, written, nowhere, if_true]

theorem fragment_of_withFragment (found : r.withFragment link target.page = .ok address)
    (named : address.fragment = some fragment) :
    ∃ text, link.fragment = some text ∧ address = address.page.withFragment text := by
  obtain ⟨rfl, _⟩ := withFragment_ok found
  cases written : link.fragment with
  | none =>
      rw [WrittenLink.carry, written] at named
      cases named
  | some text =>
      refine ⟨text, rfl, ?_⟩
      rw [WrittenLink.carry_page, WrittenLink.carry, written]

/-- The fragment of an address that a link leads to is written in the link, unless another bundle
answered with it. -/
theorem Leads.written_or_answered (made : r.atlas.Made) (leads : r.Leads link referrer outcome)
    (success : outcome = .ok address) (named : address.fragment = some fragment) :
    (∃ text, link.fragment = some text ∧ address = address.page.withFragment text) ∨
      ∃ responder ∈ r.responders, responder.answer link = .ok address := by
  cases leads with
  | ends last =>
      simp only [direct] at success
      split at success
      · cases success
      · split at success
        · rename_i page found
          have there := made.wellFormed.get?_address (lookupLocally_mem found)
          rw [← made.wellFormed.page_self there] at success
          exact .inl (fragment_of_withFragment success named)
        · cases success
        · split at success
          · rename_i claimed
            exact .inr ⟨_, claimant?_mem claimed, success⟩
          · cases success
  | @forwards _ _ _ _ outcome stub rest =>
      cases outcome with
      | error failure => cases success
      | ok target => exact .inl (fragment_of_withFragment success named)

theorem withFragment_heading (made : r.atlas.Made) (member : page ∈ r.atlas.pageList)
    (heading : fragment ∈ page.content.anchors) (written : link.fragment = some fragment) :
    Text.slug fragment = fragment ∧
      r.withFragment link page.address = .ok (page.address.withFragment fragment) := by
  have there := made.wellFormed.get?_address member
  have own := made.anchored there fragment heading
  rw [← made.wellFormed.page_self there] at there
  exact ⟨own, (withFragment_ok_iff there written).mpr (own.symm ▸ heading)⟩

theorem withFragment_shown (made : r.atlas.Made) (shown : r.atlas.Shows address)
    (named : address.fragment = some fragment) (written : link.fragment = some fragment) :
    r.withFragment link address.page = .ok (address.page.withFragment fragment) := by
  obtain ⟨page, there, own, _, _, anchors⟩ := shown
  rw [← own]
  exact (withFragment_heading made (Atlas.mem_pageList there) (anchors fragment named) written).2

theorem withFragment_outside (made : r.atlas.Made) (outside : address.bundle ≠ r.atlas.bundle)
    (written : link.fragment = some fragment) :
    r.withFragment link address.page = .ok (address.page.withFragment fragment) := by
  refine withFragment_elsewhere ?_ written
  cases there : r.atlas.page? address.page with
  | none => rfl
  | some page =>
      have placed := made.wellFormed.address_path (Option.isSome_of_eq_some there)
      exact absurd (congrArg Address.bundle placed).symm outside

theorem Apart.answer_bundle (apart : r.Apart)
    (described : ∀ responder ∈ r.responders, ∃ e : External, e.Described ∧ responder = e.responder)
    {responder : Responder} (registered : responder ∈ r.responders) {link : WrittenLink}
    {address : Address} (answer : responder.answer link = .ok address) :
    address.bundle ≠ r.atlas.bundle := by
  have different := apart responder registered
  obtain ⟨e, described, rfl⟩ := described responder registered
  rw [(described.answer answer).1]
  exact different

theorem Leads.found_again (made : r.atlas.Made) (apart : r.Apart)
    (described : ∀ responder ∈ r.responders, ∃ e : External, e.Described ∧ responder = e.responder)
    (leads : r.Leads link referrer (.ok address)) (named : address.fragment = some fragment)
    (written : again.fragment = some fragment) :
    r.withFragment again address.page = .ok (address.page.withFragment fragment) ∧
      (address.bundle = r.atlas.bundle ∨ link.fragment ≠ none →
        address.page.withFragment fragment = address) := by
  have arrives :=
    leads.arrives made (fun _ registered _ _ => apart.answer_bundle described registered) rfl
  constructor
  · by_cases here : address.bundle = r.atlas.bundle
    · exact withFragment_shown made (arrives.here here) named written
    · exact withFragment_outside made here written
  · have carried (text : String) (same : address = address.page.withFragment text) :
        address.page.withFragment fragment = address := by
      have whole : (address.page.withFragment text).fragment = some fragment := same ▸ named
      rw [Address.withFragment_fragment whole, ← same]
    intro certain
    rcases leads.written_or_answered made rfl named with
      ⟨text, _, same⟩ | ⟨responder, registered, answer⟩
    · exact carried text same
    · rcases certain with here | fragmentary
      · exact absurd here (apart.answer_bundle described registered answer)
      · obtain ⟨text, fragmentary⟩ := Option.ne_none_iff_exists'.mp fragmentary
        obtain ⟨e, _, rfl⟩ := described responder registered
        exact carried text (External.answer_withFragment answer fragmentary)

/-- Slugs are normal forms: they are the texts of their form, and no slug changes when it is made a
slug again. So an address has one form for each heading, and the fragments that are found on a page,
those whose slugs name its headings, include the names of all headings there and the fragment of
every address that a link was resolved to. -/
theorem slugs_found_again :
    (∀ text, Text.IsSlug (Text.slug text).toList ∧ Text.slug (Text.slug text) = Text.slug text ∧
      (Text.slug text = text ↔ Text.IsSlug text.toList)) ∧
    (∀ (a : Address) text, (a.withFragment text).withFragment text = a.withFragment text ∧
      a.withFragment (Text.slug text) = a.withFragment text ∧
      ∀ fragment, (a.withFragment text).fragment = some fragment →
        (a.withFragment text).withFragment fragment = a.withFragment text) ∧
    ∀ r : Resolver, r.atlas.Made →
      (∀ page ∈ r.atlas.pageList, ∀ (link : WrittenLink) text, link.fragment = some text →
        (r.withFragment link page.address = .ok (page.address.withFragment text) ↔
          Text.slug text ∈ page.content.anchors) ∧
        (text ∈ page.content.anchors → Text.slug text = text ∧
          r.withFragment link page.address = .ok (page.address.withFragment text))) ∧
      (r.Apart →
        (∀ responder ∈ r.responders, ∃ e : External, e.Described ∧ responder = e.responder) →
        ∀ m, r.Reached m → ∀ link, link.Parsed → ∀ referrer address fragment,
          (r.resolve link referrer m).1 = .ok address → address.fragment = some fragment →
          ∀ again : WrittenLink, again.fragment = some fragment →
            r.withFragment again address.page = .ok (address.page.withFragment fragment) ∧
            (address.bundle = r.atlas.bundle ∨ link.fragment ≠ none →
              address.page.withFragment fragment = address)) := by
  refine ⟨fun text => ⟨Text.isSlug_slug text, Text.slug_slug text, Text.slug_eq_self_iff⟩,
    fun a text => ⟨a.withFragment_withFragment text text, a.withFragment_slug text, fun _ named => ?_⟩,
    fun r made => ⟨fun page member link text written => ⟨?_, fun heading => ?_⟩, ?_⟩⟩
  · rw [a.withFragment_withFragment]
    exact Address.withFragment_fragment named
  · have there := made.wellFormed.get?_address member
    rw [← made.wellFormed.page_self there] at there
    exact withFragment_ok_iff there written
  · exact withFragment_heading made member heading written
  · intro apart described m reached link parsed referrer address fragment success named again written
    have leads := ((reached.settled made apart).resolve_ok_iff made apart parsed referrer).mp success
    exact leads.found_again made apart described named written

theorem slugs_found_again_other :
    let other : External := .ofEntities "com.example.other" ["Other"] [{
      summary := "Things.", availability := [], kind := "symbol"
      reference := { bundle := "com.example.other", path := ["Other", "Thing"] }
      role := "class", title := "Thing", url := "/documentation/other/thing" }] []
    let inputs : Inputs := { symbolGraphs := [⟨"Kit.symbols.json", {
      module := "Kit"
      symbols := [{
        language := "swift", precise := "s:Part", kindName := "Class"
        kindIdentifier := "swift.class", title := "Part", path := ["Part"] }] }⟩] }
    let r : Resolver := { atlas := (Atlas.build {} inputs).1, responders := [other.responder] }
    let far : WrittenLink :=
      ⟨false, none, ["Other", "Thing"], some "What's New?", "Other/Thing#What's New?", .path⟩
    let news : Address :=
      { bundle := "com.example.other", path := ["Other", "Thing"], fragment := some "what-s-new" }
    let again : WrittenLink :=
      ⟨false, none, ["Other", "Thing"], some "what-s-new", "Other/Thing#what-s-new", .path⟩
    (r.resolve far none {}).1 = .ok news ∧ r.withFragment again news.page = .ok news ∧
      Text.IsSlug "what-s-new".toList ∧
      ∃ page ∈ r.atlas.pageList, page.address.path = ["Kit", "Part"] ∧
        r.withFragment again page.address ≠ .ok (page.address.withFragment "what-s-new") := by
  intro other inputs r far news again
  have there : (r.resolve far none {}).1 = .ok news := by decide +kernel +revert
  have part : ∃ page ∈ r.atlas.pageList, page.address.path = ["Kit", "Part"] ∧
      Text.slug "what-s-new" ∉ page.content.anchors := by decide +kernel +revert
  have made : r.atlas.Made := .built {} inputs
  have apart : r.Apart := apart_of_built rfl fun responder member => by
    rw [List.mem_singleton.mp member]
    decide
  have described : ∀ responder ∈ r.responders, ∃ e : External, e.Described ∧ responder = e.responder :=
    fun responder member => ⟨other, ⟨_, _, _, _, rfl⟩, List.mem_singleton.mp member⟩
  have parsed : far.Parsed := ⟨"Other/Thing#What's New?", by decide +kernel⟩
  obtain ⟨slugs, _, found⟩ := slugs_found_again
  obtain ⟨pages, addresses⟩ := found r made
  obtain ⟨passed, same⟩ := addresses apart described {} .start far parsed none news "what-s-new" there
    rfl again rfl
  have slug : Text.slug "what-s-new" = "what-s-new" := by decide +kernel
  obtain ⟨page, member, path, unnamed⟩ := part
  exact ⟨there, (same (.inr nofun)) ▸ passed, (slugs _).2.2.mp slug, page, member, path,
    fun found => unnamed ((pages page member again _ rfl).1.mp found)⟩

end Resolver

end Concordance
