import Mathlib
import Concordance.Proofs.Markup.Relinked
import Concordance.Proofs.Markup.Traversal
import Concordance.Proofs.Renderer.SelfContained
import Concordance.Resolver.Basic

/-! # Resolving all links of a page

Whatever was resolved before, resolving what a page holds leaves no link to be resolved
and nothing else changed, and reports the failures of just those links that failed now.
So nothing on the page that is rendered from it stands for a link that was not tried, and
a second time nothing is left to do.
-/

namespace Concordance

open Rendered (References)

theorem Content.running_subset (c : Content) : c.running ⊆ c.links := by
  intro l member
  cases c with
  | article title docs => exact List.mem_append_left _ (List.mem_append_left _ member)
  | redirect title target => exact member
  | symbol s =>
      exact List.mem_append_left _ (List.mem_append_left _ (List.mem_append_left _ member))
  | tutorial t => exact member

theorem Content.related_subset (c : Content) : c.related ⊆ c.links := by
  intro l member
  cases c with
  | symbol s => exact List.mem_append_right _ member
  | article | redirect | tutorial => cases member

/-- What resolving may make of a link: it keeps its title, and is resolved unless it was before. -/
inductive Link.Settles : Link → Link → Prop
  | kept {l : Link} (tried : ∀ written, l.destination ≠ .unresolved written) : Settles l l
  | web {written : WrittenLink} {title : Option String} (url : written.isUrl = true) :
      Settles ⟨.unresolved written, title⟩ ⟨.url written.text, title⟩
  | found {written : WrittenLink} {title : Option String} {address : Address}
      (page : written.isUrl = false) :
      Settles ⟨.unresolved written, title⟩ ⟨.resolved address, title⟩
  | failed {written : WrittenLink} {title : Option String} {failure : Failure}
      (page : written.isUrl = false) :
      Settles ⟨.unresolved written, title⟩ ⟨.failed failure, title⟩

theorem Link.Settles.tried {l after : Link} (settles : l.Settles after) (written : WrittenLink) :
    after.destination ≠ .unresolved written := by
  cases settles with
  | kept tried => exact tried written
  | web | found | failed => exact nofun

/-- The failure of a link that was to be resolved and has failed. -/
def Link.newFailure? : Link × Link → Option Failure
  | (⟨.unresolved _, _⟩, ⟨.failed failure, _⟩) => some failure
  | _ => none

namespace Renderer

variable {r : Renderer} {page : Page} {content : Content} {store : References}

/-- On a page whose links have all been tried, what stands for nothing that can be shown stands for
a link that failed or for an address of which there is nothing to show. -/
theorem render_placeholder (reached : Reached store)
    (tried : ∀ l ∈ content.links, ∀ written, l.destination ≠ .unresolved written)
    {entry : String × Rendered.Reference}
    (member : entry ∈ (r.render page content store).1.references)
    (nowhere : entry.2.lead = .nowhere) :
    (∃ l ∈ content.links, ∃ failure, l.destination = .failed failure ∧ entry.1 = failure.link) ∨
      ∃ address, r.lead store address = .nowhere ∧ entry.1 = address.identifier := by
  obtain ⟨d, sound, _, used, _⟩ :=
    render_accounts r page content (fun lead id => (lead, id) ∈ r.leads store page content)
      reached.shown fun _ listed => listed
  have stands := sound.leads entry (used ▸ member)
  rw [nowhere] at stands
  rcases List.mem_append.mp stands with ofLink | ofPage
  · obtain ⟨l, shown, leads⟩ := List.mem_map.mp ofLink
    have listed : l ∈ content.links :=
      (List.mem_append.mp shown).elim (content.running_subset ·) (content.related_subset ·)
    simp only [leadOf] at leads
    split at leads
    · rename_i address _
      obtain ⟨lead, id⟩ := Prod.mk.inj leads
      exact .inr ⟨address, lead, id.symm⟩
    · cases (Prod.mk.inj leads).1
    · rename_i failure failed
      exact .inl ⟨l, listed, failure, failed, (Prod.mk.inj leads).2.symm⟩
    · rename_i written unresolved
      exact absurd unresolved (tried l listed written)
  · obtain ⟨address, _, leads⟩ := List.mem_map.mp ofPage
    obtain ⟨lead, id⟩ := Prod.mk.inj leads
    exact .inr ⟨address, lead, id.symm⟩

end Renderer

namespace Resolver

variable (r : Resolver) (referrer : Address)

theorem resolveLink_settles (l : Link) (s : Progress) :
    l.Settles ((r.resolveLink referrer l).run s).1 ∧
      ((r.resolveLink referrer l).run s).2.failures =
        s.failures ++ (Link.newFailure? (l, ((r.resolveLink referrer l).run s).1)).toList := by
  obtain ⟨destination, title⟩ := l
  cases destination with
  | unresolved written =>
      simp only [resolveLink, StateT.run]
      split
      · rename_i url
        exact ⟨.web url, (List.append_nil _).symm⟩
      · rename_i notUrl
        have page : written.isUrl = false := by simpa using notUrl
        rcases r.resolve written (some referrer) s.memory with ⟨address | failure, memory⟩
        · exact ⟨.failed page, rfl⟩
        · exact ⟨.found page, (List.append_nil _).symm⟩
  | failed | resolved | url => exact ⟨.kept nofun, (List.append_nil _).symm⟩

theorem resolveLink_tried {l : Link} (tried : ∀ written, l.destination ≠ .unresolved written) :
    r.resolveLink referrer l = pure l := by
  rw [resolveLink]
  split
  · rename_i written unresolved
    exact absurd unresolved (tried written)
  · rfl

theorem resolveLinks_failures (ls : List Link) (s : Progress) :
    ((ls.mapM (r.resolveLink referrer)).run s).2.failures =
      s.failures ++ (ls.zip ((ls.mapM (r.resolveLink referrer)).run s).1).filterMap
        Link.newFailure? := by
  induction ls generalizing s with
  | nil => exact (List.append_nil _).symm
  | cons l ls ih =>
      have first := (r.resolveLink_settles referrer l s).2
      have rest := ih ((r.resolveLink referrer l).run s).2
      rw [List.mapM_cons]
      refine rest.trans ?_
      rw [first, List.append_assoc]
      refine congrArg (s.failures ++ ·) ?_
      change _ = List.filterMap Link.newFailure? ((l, ((r.resolveLink referrer l).run s).1) :: _)
      rw [List.filterMap_cons]
      cases Link.newFailure? (l, ((r.resolveLink referrer l).run s).1) <;> rfl

section Content

variable (content : Content) (m : Memory)

/-- Going through a page resolves the links that the page lists, one after the other. -/
theorem resolveContent_links :
    ((r.resolveContent referrer content m).1.links, (r.resolveContent referrer content m).2) =
      (content.links.mapM (r.resolveLink referrer)).run { memory := m } :=
  congrArg (StateT.run · ({ memory := m } : Progress))
    (content.links_traverseLinks (r.resolveLink referrer))

theorem resolveContent_tried :
    ∀ l ∈ (r.resolveContent referrer content m).1.links, ∀ written,
      l.destination ≠ .unresolved written := by
  have results := Keeps.mapM_results (I := fun _ : Progress => True)
    (Q := fun (l : Link) _ => ∀ written, l.destination ≠ .unresolved written)
    (fun l (_ : l ∈ content.links) _ _ => trivial)
    (fun l _ s _ => (r.resolveLink_settles referrer l s).1.tried)
    (fun _ _ _ _ here => ⟨trivial, here.2⟩) (s := { memory := m }) trivial
  rw [← resolveContent_links] at results
  exact results

theorem resolveContent_failures :
    (r.resolveContent referrer content m).2.failures =
      (content.links.zip (r.resolveContent referrer content m).1.links).filterMap
        Link.newFailure? := by
  have failures := r.resolveLinks_failures referrer content.links { memory := m }
  rw [← resolveContent_links] at failures
  exact failures

theorem resolveContent_of_tried {content : Content}
    (tried : ∀ l ∈ content.links, ∀ written, l.destination ≠ .unresolved written) :
    r.resolveContent referrer content m = (content, { memory := m }) := by
  have done : content.traverseLinks (r.resolveLink referrer) = pure content :=
    Content.traverseLinks_eq_pure fun l member => r.resolveLink_tried referrer (tried l member)
  rw [resolveContent, done]
  rfl

end Content

/-- Whatever a page holds and whatever was resolved before: no link on the page is left to be
resolved, and so none shows when the page is rendered; nothing but these links is changed; the
failures are those of the links that failed now, in reading order; and a second time nothing is
done, wherever and with whatever memory it is done. -/
theorem resolveContent_settles (r : Resolver) (referrer : Address) (content : Content)
    (m : Memory) :
    let done := r.resolveContent referrer content m
    (∀ l, done.1.Shows l → ∀ written, l.destination ≠ .unresolved written) ∧
      (∀ (renderer : Renderer) (page : Page) (store : References), Renderer.Reached store →
        ∀ entry ∈ (renderer.render page done.1 store).1.references, entry.2.lead = .nowhere →
          (∃ l, done.1.Shows l ∧ ∃ failure, l.destination = .failed failure ∧
            entry.1 = failure.link) ∨
          ∃ address, renderer.lead store address = .nowhere ∧ entry.1 = address.identifier) ∧
      content.Relinked Link.Settles done.1 ∧
      done.2.failures = (content.links.zip done.1.links).filterMap Link.newFailure? ∧
      ∀ again memory, r.resolveContent again done.1 memory = (done.1, { memory }) := by
  have tried := r.resolveContent_tried referrer content m
  refine ⟨fun l shows => tried l (Content.shows_iff.mp shows), ?_, ?_,
    r.resolveContent_failures referrer content m, fun again memory => ?_⟩
  · intro renderer page store reached entry member nowhere
    simp only [Content.shows_iff]
    exact Renderer.render_placeholder reached tried member nowhere
  · exact Content.traverseLinks_relinked
      (fun l s => (r.resolveLink_settles referrer l s).1) content _
  · exact r.resolveContent_of_tried again memory tried

/-- A symbol with a web address, a link that fails and one that failed before: only one failure is
reported, and nothing is left to do. -/
theorem resolveContent_settles_part :
    let r : Resolver := { atlas := { bundle := "com.example.kit" } }
    let referrer : Address := ⟨"com.example.kit", ["Kit", "Part"], none⟩
    let gone : WrittenLink := {
      absolute := false, bundle := none, components := ["Gone"], fragment := none, text := "Gone"
      form := .symbol }
    let site : WrittenLink := { gone with text := "https://swift.org", form := .url }
    let before : Link := { destination := .failed (.unresolved "Old" "`Old` doesn't exist") }
    let content : Content := .symbol {
      precise := "s:Part", kind := ⟨"Class", "class"⟩, module := "Kit"
      primary := ⟨"swift", "Part", ""⟩
      docs := {
        summary := [.text "See ", .link (.written site)]
        topics := [⟨"Topics", [before]⟩] }
      relations := [⟨.conformsTo, .written gone (some "gone")⟩] }
    let done := r.resolveContent referrer content {}
    done.2.failures = [.unresolved "Gone" "`Gone` doesn't exist"] ∧
      done.1.links.map Link.title = [none, none, some "gone"] ∧
      r.resolveContent referrer done.1 done.2.memory = (done.1, { memory := done.2.memory }) := by
  intro r referrer gone site before content done
  have facts : done.2.failures = [.unresolved "Gone" "`Gone` doesn't exist"] ∧
      done.1.links.map Link.title = [none, none, some "gone"] := by decide +kernel
  obtain ⟨_, _, _, _, again⟩ := resolveContent_settles r referrer content {}
  exact ⟨facts.1, facts.2, again referrer done.2.memory⟩

end Resolver

end Concordance
