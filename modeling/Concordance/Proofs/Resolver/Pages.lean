import Mathlib
import Concordance.Proofs.Resolver.Record

/-! # Resolving pages

If pages do not forward in a circle, what the links of a page are resolved to depends on
nothing that was resolved before, down to the texts of failures, and every page that
they lead to is on record afterwards.
-/

namespace Concordance.Resolver

variable {r : Resolver} {link : WrittenLink} {referrer : Option Address} {m m' : Memory}
  {outcome other : Resolution}

/-- No page forwards to a link whose way comes back to the page. -/
def Acyclic (r : Resolver) : Prop :=
  ∀ page ∈ r.atlas.pageList, ∀ title target, page.content = .redirect title target →
    ∀ n, r.trail n target (some page.address) ≠ some page

theorem Acyclic.not_endless (acyclic : r.Acyclic) : ¬ r.Endless link referrer := by
  rw [endless_iff_returns]
  rintro ⟨i, j, page, later, first, second⟩
  obtain ⟨title, target, content, on⟩ := trail_page first
  refine acyclic page (trail_mem first) title target content (j - (i + 1)) ?_
  rw [← on, show i + 1 + (j - (i + 1)) = j by omega]
  exact second

theorem Right.unique (acyclic : r.Acyclic) (one : r.Right link referrer outcome)
    (two : r.Right link referrer other) : outcome = other := by
  rcases one with one | ⟨endless, _⟩
  · rcases two with two | ⟨endless, _⟩
    · exact one.unique two
    · exact absurd endless acyclic.not_endless
  · exact absurd endless acyclic.not_endless

section Outcomes

variable (made : r.atlas.Made) (apart : r.Apart) (acyclic : r.Acyclic)
include made apart acyclic

/-- What was resolved before does not show in the outcome. -/
theorem Settled.resolve_eq (here : r.Settled m) (there : r.Settled m') (parsed : link.Parsed)
    (referrer : Option Address) : (r.resolve link referrer m).1 = (r.resolve link referrer m').1 :=
  (here.meets made apart parsed referrer).right.unique acyclic
    (there.meets made apart parsed referrer).right

/-- Progress with the same failures, on memories that may differ in what is remembered. -/
structure Level (r : Resolver) (s t : Progress) : Prop where
  one : r.Settled s.memory
  other : r.Settled t.memory
  failures : s.failures = t.failures

theorem resolveLink_alike (referrer : Address) {l : Link}
    (written : ∀ link, l.destination = .unresolved link → link.Parsed) :
    Alike r.Level (r.resolveLink referrer l) (r.resolveLink referrer l) := by
  intro s t level
  rcases r.resolveLink_cases referrer l with ⟨link, unresolved, run⟩ | ⟨found, _, run⟩
  · have parsed := written link unresolved
    rw [run, run, level.one.resolve_eq made apart acyclic level.other parsed (some referrer),
      level.failures]
    exact ⟨rfl, level.one.resolve made apart parsed (some referrer),
      level.other.resolve made apart parsed (some referrer), rfl⟩
  · rw [run, run]
    exact ⟨rfl, level⟩

theorem Settled.resolveContent_eq (here : r.Settled m) (there : r.Settled m') {content : Content}
    (written : content.Written) (referrer : Address) :
    (r.resolveContent referrer content m).1 = (r.resolveContent referrer content m').1 ∧
      (r.resolveContent referrer content m).2.failures =
        (r.resolveContent referrer content m').2.failures := by
  obtain ⟨same, level⟩ := Content.traverseLinks_alike
    (fun l member => resolveLink_alike made apart acyclic referrer (written l member))
    { memory := m } { memory := m' } ⟨here, there, rfl⟩
  exact ⟨same, level.failures⟩

end Outcomes

/-- Where a link on a page leads, as far as it leads to an address: it is resolved to it, or is
written as a link that leads there in the end. -/
def Targets (r : Resolver) (page : Address) (l : Link) (target : Address) : Prop :=
  l.destination = .resolved target ∨
    ∃ link, l.destination = .unresolved link ∧ r.Leads link (some page) (.ok target)

section Targets

variable {page target : Address}

theorem not_leads_of_isUrl (isUrl : link.isUrl = true) : ¬ r.Leads link referrer (.ok target) := by
  have nowhere : r.stub? link referrer = none := by simp [stub?, isUrl]
  intro leads
  have web := leads.unique (.ends nowhere)
  simp [direct, isUrl] at web

theorem targets_unresolved {l : Link} (unresolved : l.destination = .unresolved link) :
    r.Targets page l target ↔ r.Leads link (some page) (.ok target) := by
  simp [Targets, unresolved]

variable (made : r.atlas.Made) (apart : r.Apart)
include made apart

theorem Settled.resolve_ok_iff (settled : r.Settled m) (parsed : link.Parsed)
    (referrer : Option Address) : (r.resolve link referrer m).1 = .ok target ↔
      r.Leads link (referrer.map Address.page) (.ok target) := by
  have right := (settled.meets made apart parsed referrer).right
  constructor
  · intro success
    rw [success] at right
    exact right.ok_leads
  · intro leads
    rcases right with outcome | ⟨endless, _⟩
    · exact outcome.unique leads
    · exact absurd endless leads.not_endless

theorem Settled.resolveLink_targets (plain : page.page = page) {l : Link}
    (written : ∀ link, l.destination = .unresolved link → link.Parsed) {s : Progress}
    (settled : r.Settled s.memory) :
    ((r.resolveLink page l).run s).1.destination = .resolved target ↔ r.Targets page l target := by
  obtain ⟨destination, title⟩ := l
  cases destination with
  | unresolved link =>
      have leads : (r.resolve link (some page) s.memory).1 = .ok target ↔ _ :=
        settled.resolve_ok_iff made apart (written link rfl) (some page)
      rw [Option.map_some, plain] at leads
      rw [targets_unresolved rfl, ← leads, resolveLink]
      simp only [StateT.run]
      split
      · rename_i isUrl
        rw [leads]
        refine iff_of_false (fun resolved => ?_) (not_leads_of_isUrl isUrl)
        cases resolved
      · cases r.resolve link (some page) s.memory with
        | mk outcome memory => cases outcome <;> simp
  | resolved | failed | url =>
      refine ⟨.inl, ?_⟩
      rintro (same | ⟨_, unresolved, _⟩)
      · exact same
      · cases unresolved

theorem Settled.resolveContent_targets (settled : r.Settled m) (plain : page.page = page)
    {content : Content} (written : content.Written) :
    (∃ found ∈ (r.resolveContent page content m).1.links, found.destination = .resolved target) ↔
      ∃ l ∈ content.links, r.Targets page l target := by
  have law := congrArg (StateT.run · ({ memory := m } : Progress))
    (content.links_traverseLinks (r.resolveLink page))
  have results := Keeps.mapM_exists (I := fun s : Progress => r.Settled s.memory)
    (P := fun found : Link => found.destination = .resolved target)
    (fun l member => resolveLink_keeps made apart page (written l member))
    (fun l member s here => here.resolveLink_targets made apart plain (written l member))
    (s := { memory := m }) settled
  rw [← law] at results
  exact results

end Targets

section Record

variable (made : r.atlas.Made) (apart : r.Apart)
include made apart

/-- A memory between calls that has everything on record. -/
structure Kept (r : Resolver) (m : Memory) : Prop where
  settled : r.Settled m
  recorded : r.Recorded m

omit made apart in
theorem Kept.empty : r.Kept {} := ⟨⟨.empty, rfl⟩, .empty⟩

theorem Kept.resolve (kept : r.Kept m) (parsed : link.Parsed) (referrer : Option Address) :
    r.Kept (r.resolve link referrer m).2 ∧
      r.Grown m.inquiries (r.resolve link referrer m).1 (r.resolve link referrer m).2 := by
  have grown := (kept.settled.meets made apart parsed referrer).runs.grown made apart parsed
    kept.recorded
  exact ⟨⟨kept.settled.resolve made apart parsed referrer, grown.recorded⟩, grown⟩

omit apart in
theorem known_of_has {inquiries : List Inquiry} {address : Address}
    (held : r.atlas.pages.has address = true) : r.Known inquiries address :=
  .inl (congrArg Address.bundle (made.wellFormed.address_path held)).symm

theorem resolveLink_kept (referrer : Address) {l : Link} (known : r.atlas.Knows l) (s : Progress)
    (kept : r.Kept s.memory) :
    r.Kept ((r.resolveLink referrer l).run s).2.memory ∧
      s.memory.inquiries ⊆ ((r.resolveLink referrer l).run s).2.memory.inquiries ∧
      ∀ address, ((r.resolveLink referrer l).run s).1.destination = .resolved address →
        r.Known ((r.resolveLink referrer l).run s).2.memory.inquiries address := by
  rcases r.resolveLink_cases referrer l with ⟨link, unresolved, run⟩ | ⟨found, before, run⟩
  · obtain ⟨after, grown⟩ := kept.resolve made apart (known.parsed link unresolved) (some referrer)
    rw [run]
    refine ⟨after, grown.more, fun address resolved => grown.known address ?_⟩
    cases outcome : (r.resolve link (some referrer) s.memory).1 with
    | ok target =>
        simp only [outcome, destination, Destination.resolved.injEq] at resolved
        rw [resolved]
    | error failure => simp [outcome, destination] at resolved
  · rw [run]
    exact ⟨kept, List.Subset.refl _,
      fun address resolved => known_of_has made (known.held address (before address resolved))⟩

/-- Once the content of a page is resolved, every page that its links lead to is known. -/
theorem Kept.resolveContent (kept : r.Kept m) {content : Content}
    (known : ∀ l ∈ content.links, r.atlas.Knows l) (referrer : Address) :
    r.Kept (r.resolveContent referrer content m).2.memory ∧
      m.inquiries ⊆ (r.resolveContent referrer content m).2.memory.inquiries ∧
      ∀ l ∈ (r.resolveContent referrer content m).1.links, ∀ address,
        l.destination = .resolved address →
        r.Known (r.resolveContent referrer content m).2.memory.inquiries address := by
  let I (s : Progress) := r.Kept s.memory ∧ m.inquiries ⊆ s.memory.inquiries
  let Q (l : Link) (s : Progress) := ∀ address, l.destination = .resolved address →
    r.Known s.memory.inquiries address
  have keeps (l : Link) (member : l ∈ content.links) : Keeps I (r.resolveLink referrer l) := by
    intro s ⟨kept, since⟩
    obtain ⟨after, more, _⟩ := resolveLink_kept made apart referrer (known l member) s kept
    exact ⟨after, List.Subset.trans since more⟩
  have gives (l : Link) (member : l ∈ content.links) (s : Progress) (here : I s) :=
    (resolveLink_kept made apart referrer (known l member) s here.1).2.2
  have stays (l : Link) (member : l ∈ content.links) (found : Link) :
      Keeps (fun s => I s ∧ Q found s) (r.resolveLink referrer l) := by
    intro s ⟨here, before⟩
    have more := (resolveLink_kept made apart referrer (known l member) s here.1).2.1
    exact ⟨keeps l member s here, fun address resolved => (before address resolved).mono more⟩
  have start : I { memory := m } := ⟨kept, List.Subset.refl _⟩
  obtain ⟨after, more⟩ := Content.traverseLinks_keeps keeps _ start
  refine ⟨after, more, fun l member => ?_⟩
  -- The links of the result are those that going through the links one by one gives.
  have law := congrArg (StateT.run · ({ memory := m } : Progress))
    (content.links_traverseLinks (r.resolveLink referrer))
  have results := Keeps.mapM_results (Q := Q) keeps gives stays start
  rw [← law] at results
  exact results l member

end Record

end Concordance.Resolver
