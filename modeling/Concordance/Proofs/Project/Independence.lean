import Mathlib
import Concordance.Proofs.Project.Uses

/-! # Pages do not show in each other

A page is published as it would be on its own, whatever pages were published before it
with the same memory and the same store. So the order in which pages are published shows
in nothing but what is counted on the way.
-/

namespace Concordance.Project

variable {p : Project} {page : Page} {pages rest : List Page} {shared middle : Shared}
  {result : PageResult} {outcome : List PageResult × Shared}

/-- What publishing a page on its own gives. -/
def alone (p : Project) (page : Page) : PageResult := (p.publishPage page {}).1

/-- Publish all pages that are shown, one after the other in an order of their own, and put the
results in order. -/
def publishIn (p : Project) (order : List Page) : Publication :=
  let (results, shared) := p.publishPages order {}
  p.gather (p.atlas.shown.filterMap fun page =>
    results.find? fun result => result.page.address == page.address) shared

/-- What is shared while pages are published: all that was asked is on record, and what is stored
is what there is to show of addresses that the pages use. -/
structure Consistent (p : Project) (pages : List Page) (shared : Shared) : Prop where
  kept : p.resolver.Kept shared.memory
  faithful : (p.renderer shared.memory.inquiries).Faithful
    (fun address => address ∈ pages.flatMap p.uses ∧
      p.resolver.Known shared.memory.inquiries address) shared.store

theorem Consistent.empty : p.Consistent pages {} := ⟨.empty, .empty⟩

/-- Pages were published as on their own: what they share is consistent as before, and holds what it
held and what each of them makes. -/
structure Advance (p : Project) (pages rest : List Page) (shared : Shared)
    (outcome : List PageResult × Shared) : Prop where
  results : outcome.1 = rest.map p.alone
  consistent : p.Consistent pages outcome.2
  more : shared.memory.inquiries ⊆ outcome.2.memory.inquiries
  stored : ∀ id, outcome.2.store.has id = true ↔
    shared.store.has id = true ∨ ∃ page ∈ rest, (p.publishPage page {}).2.store.has id = true
  external : ∀ page ∈ rest, ∀ address ∈ (p.alone page).external,
    p.resolver.Asked outcome.2.memory.inquiries address

theorem Advance.nil (consistent : p.Consistent pages shared) :
    p.Advance pages [] shared ([], shared) where
  results := rfl
  consistent := consistent
  more := List.Subset.refl _
  stored := by simp
  external := by simp

theorem Advance.cons (first : p.Advance pages [page] shared ([result], middle))
    (later : p.Advance pages rest middle outcome) :
    p.Advance pages (page :: rest) shared (result :: outcome.1, outcome.2) where
  results := by rw [List.map_cons, ← later.results, (List.singleton_inj.mp first.results)]
  consistent := later.consistent
  more := List.Subset.trans first.more later.more
  stored id := by simp [later.stored, first.stored, or_assoc]
  external := by
    simp only [List.forall_mem_cons]
    refine ⟨fun address listed => ?_, later.external⟩
    exact (first.external page List.mem_cons_self address listed).mono later.more

theorem Advance.asked (advance : p.Advance pages rest shared outcome) {others : List Page}
    (fewer : ∀ page ∈ others, page ∈ rest) :
    ∀ address ∈ (others.map p.alone).flatMap PageResult.external,
      p.resolver.Asked outcome.2.memory.inquiries address := by
  intro address member
  obtain ⟨_, result, external⟩ := List.mem_flatMap.mp member
  obtain ⟨page, listed, rfl⟩ := List.mem_map.mp result
  exact advance.external page (fewer page listed) address external

theorem externalTarget?_eq_some {bundle : String} {l : Link} {address : Address}
    (found : externalTarget? bundle l = some address) :
    ∃ target, l.destination = .resolved target ∧ target.bundle ≠ bundle ∧ address = target.page := by
  simp only [externalTarget?] at found
  split at found
  · rename_i target resolved
    split at found
    · cases found
    · rename_i elsewhere
      cases found
      exact ⟨target, resolved, by simpa using elsewhere, rfl⟩
  · cases found

namespace Regular

variable (regular : p.Regular) (unambiguous : p.Unambiguous pages)
include regular unambiguous

theorem publishPage_beside (member : page ∈ pages) (there : page ∈ p.atlas.pageList)
    (consistent : p.Consistent pages shared) :
    (p.publishPage page shared).1 = p.alone page ∧
      ∀ id, (p.publishPage page shared).2.store.get? id =
        ((p.publishPage page {}).2.store.get? id).or (shared.store.get? id) := by
  let after := (p.resolver.resolveContent page.address page.content shared.memory).2
  let fresh := (p.resolver.resolveContent page.address page.content {}).2
  obtain ⟨content, failures⟩ := regular.resolveContent_eq consistent.kept there
  have known {address : Address} (used : address ∈ p.uses page) :
      p.resolver.Known after.memory.inquiries address :=
    regular.known_uses consistent.kept there used
  have known' {address : Address} (used : address ∈ p.uses page) :
      p.resolver.Known fresh.memory.inquiries address :=
    regular.known_uses .empty there used
  have old (address : Address) (used : address ∈ p.uses page) (reference : Rendered.Reference)
      (found : shared.store.get? address.identifier = some reference) :
      (p.renderer fresh.memory.inquiries).topic? address = some reference := by
    obtain ⟨other, ⟨used', before⟩, identifier, topic⟩ := consistent.faithful.shown found
    have same : other = address :=
      unambiguous other used' address (List.mem_flatMap.mpr ⟨page, member, used⟩) identifier
    rw [regular.topic?_eq (known' used) (same ▸ before), ← same]
    exact topic
  have beside : ((p.renderer after.memory.inquiries).render page (p.resolved page) shared.store).1 =
        ((p.renderer fresh.memory.inquiries).render page (p.resolved page) []).1 ∧
      ∀ id, ((p.renderer after.memory.inquiries).render page (p.resolved page) shared.store).2.get? id =
        (((p.renderer fresh.memory.inquiries).render page (p.resolved page) []).2.get? id).or
          (shared.store.get? id) :=
    Renderer.render_beside rfl rfl
      (fun address used => regular.topic?_eq (known used) (known' used)) old
      (fun q => ancestors_uses) (fun q => uncurated_uses) (p.leadWithin_uses page)
  constructor
  · calc (p.publishPage page shared).1
        = p.report page (p.resolver.resolveContent page.address page.content shared.memory).1
            after.failures ((p.renderer after.memory.inquiries).render page
              (p.resolver.resolveContent page.address page.content shared.memory).1
              shared.store).1 := rfl
      _ = p.report page (p.resolved page) fresh.failures
            ((p.renderer fresh.memory.inquiries).render page (p.resolved page) []).1 := by
          rw [content, beside.1, failures]
      _ = p.alone page := rfl
  · intro id
    have stored : (p.publishPage page shared).2.store =
        ((p.renderer after.memory.inquiries).render page
          (p.resolver.resolveContent page.address page.content shared.memory).1
          shared.store).2 := rfl
    rw [stored, content]
    exact beside.2 id

omit unambiguous in
theorem publishPage_consistent (member : page ∈ pages) (there : page ∈ p.atlas.pageList)
    (consistent : p.Consistent pages shared) : p.Consistent pages (p.publishPage page shared).2 := by
  obtain ⟨kept, more⟩ := regular.resolveContent_kept consistent.kept there
  refine ⟨kept, ?_⟩
  let after := (p.publishPage page shared).2.memory.inquiries
  -- What was stored before is shown alike now that more was asked.
  have before : (p.renderer after).Faithful
      (fun address => address ∈ pages.flatMap p.uses ∧ p.resolver.Known after address)
      shared.store := by
    refine ⟨consistent.faithful.rising, fun found => ?_⟩
    obtain ⟨address, ⟨used, known⟩, identifier, topic⟩ := consistent.faithful.shown found
    have later := known.mono more
    exact ⟨address, ⟨used, later⟩, identifier, (regular.topic?_eq later known).trans topic⟩
  have used {address : Address} (used : address ∈ p.uses page) :
      address ∈ pages.flatMap p.uses ∧ p.resolver.Known after address :=
    ⟨List.mem_flatMap.mpr ⟨page, member, used⟩, regular.known_uses consistent.kept there used⟩
  have within : Renderer.LeadWithin
      (fun address => address ∈ pages.flatMap p.uses ∧ p.resolver.Known after address)
      (p.resolver.resolveContent page.address page.content shared.memory).1.links := by
    rw [(regular.resolveContent_eq consistent.kept there).1]
    exact fun l listed address resolved => used (p.leadWithin_uses page l listed address resolved)
  exact before.render (fun q above => used (ancestors_uses above))
    (fun q below => used (uncurated_uses below)) within

omit unambiguous in
theorem publishPage_external (there : page ∈ p.atlas.pageList) (kept : p.resolver.Kept shared.memory)
    {address : Address} (listed : address ∈ (p.alone page).external) :
    p.resolver.Asked (p.publishPage page shared).2.memory.inquiries address := by
  obtain ⟨l, member, found⟩ := List.mem_filterMap.mp listed
  obtain ⟨target, resolved, elsewhere, rfl⟩ := externalTarget?_eq_some found
  have known := regular.known_uses kept there (p.leadWithin_uses page l member target resolved)
  exact (known.resolve_left elsewhere).of_page target.page_page

theorem publishPage_advance (member : page ∈ pages) (there : page ∈ p.atlas.pageList)
    (consistent : p.Consistent pages shared) :
    p.Advance pages [page] shared
      ([(p.publishPage page shared).1], (p.publishPage page shared).2) := by
  obtain ⟨same, stored⟩ := regular.publishPage_beside unambiguous member there consistent
  exact {
    results := congrArg (fun result => [result]) same
    consistent := regular.publishPage_consistent member there consistent
    more := (regular.resolveContent_kept consistent.kept there).2
    stored := fun id => by simp [Assoc.has, stored, or_comm]
    external := fun q only => by
      rw [List.mem_singleton.mp only]
      exact fun address listed => regular.publishPage_external there consistent.kept listed }

/-- Pages are published as each on its own. The induction is on the pages that are left. -/
theorem publishPages_advance (inside : ∀ page ∈ rest, page ∈ pages ∧ page ∈ p.atlas.pageList)
    (consistent : p.Consistent pages shared) :
    p.Advance pages rest shared (p.publishPages rest shared) := by
  induction rest generalizing shared with
  | nil => exact .nil consistent
  | cons page rest ih =>
      simp only [List.forall_mem_cons] at inside
      have first := regular.publishPage_advance unambiguous inside.1.1 inside.1.2 consistent
      exact first.cons (ih inside.2 first.consistent)

/-- What is stored in the end depends on nothing but the identifiers that are stored. -/
theorem store_eq {other : Shared} (one : p.Consistent pages shared) (two : p.Consistent pages other)
    (same : ∀ id, shared.store.has id = true ↔ other.store.has id = true) :
    shared.store = other.store := by
  refine one.faithful.rising.eq_of_get? two.faithful.rising fun id => ?_
  cases here : shared.store.get? id with
  | none =>
      cases there : other.store.get? id with
      | none => rfl
      | some reference => simpa [Assoc.has, here, there] using same id
  | some reference =>
      obtain ⟨reference', there⟩ := Option.isSome_iff_exists.mp
        ((same id).mp (Option.isSome_of_eq_some here))
      obtain ⟨a, ⟨used, known⟩, identifier, topic⟩ := one.faithful.shown here
      obtain ⟨b, ⟨used', known'⟩, identifier', topic'⟩ := two.faithful.shown there
      have addresses : a = b := unambiguous a used b used' (identifier.trans identifier'.symm)
      subst addresses
      rw [there, ← topic, ← topic', regular.topic?_eq known known']

end Regular

section Order

variable {order : List Page}

theorem collected (made : p.atlas.Made) (all : order.Perm p.atlas.shown) :
    (p.atlas.shown.filterMap fun page =>
      (order.map p.alone).find? fun result => result.page.address == page.address) =
      p.atlas.shown.map p.alone := by
  have wf := made.wellFormed
  have found (page : Page) (member : page ∈ p.atlas.shown) :
      ((order.map p.alone).find? fun result => result.page.address == page.address) =
        some (p.alone page) := by
    have here := all.mem_iff.mpr member
    cases first : (order.map p.alone).find? fun result => result.page.address == page.address with
    | none =>
        have none := List.find?_eq_none.mp first _ (List.mem_map_of_mem here)
        exact absurd (beq_self_eq_true page.address) none
    | some result =>
        obtain ⟨q, listed, rfl⟩ := List.mem_map.mp (List.mem_of_find?_eq_some first)
        have same : (p.alone q).page.address = page.address := by simpa using List.find?_some first
        have same : q.address = page.address := same
        have there := wf.get?_address (List.mem_filter.mp (all.mem_iff.mp listed)).1
        rw [same, wf.get?_address (List.mem_filter.mp member).1] at there
        rw [Option.some.inj there]
  exact (List.filterMap_congr found).trans (congrFun List.filterMap_eq_map _)

theorem Regular.entitiesOf_eq (regular : p.Regular) {inquiries others : List Inquiry}
    {addresses : List Address} (asked : ∀ address ∈ addresses, p.resolver.Asked inquiries address)
    (asked' : ∀ address ∈ addresses, p.resolver.Asked others address) :
    p.entitiesOf inquiries addresses = p.entitiesOf others addresses := by
  simp only [entitiesOf]
  congr 2
  refine List.filterMap_congr fun address listed => ?_
  rw [regular.entity?_of_asked (asked address listed),
    regular.entity?_of_asked (asked' address listed)]

/-- Pages do not depend on each other: any pages, published in any order with one memory and one
store, are published as each on its own. So the order in which all pages are published shows in
nothing but what the cache has counted and in which order it has things. -/
theorem publish_order (regular : p.Regular) (inside : ∀ page ∈ order, page ∈ p.atlas.pageList)
    (unambiguous : p.Unambiguous order) :
    (p.publishPages order {}).1 = order.map p.alone ∧
      (order.Perm p.atlas.shown →
        p.publishIn order = { p.publish with cache := (p.publishIn order).cache } ∧
          (p.publishIn order).lock = p.publish.lock) := by
  have ordered : p.Advance order order {} (p.publishPages order {}) :=
    regular.publishPages_advance unambiguous (fun page member => ⟨member, inside page member⟩)
      .empty
  refine ⟨ordered.results, fun all => ?_⟩
  have straight : p.Advance order p.atlas.shown {} (p.publishPages p.atlas.shown {}) :=
    regular.publishPages_advance unambiguous
      (fun page member => ⟨all.mem_iff.mpr member, (List.mem_filter.mp member).1⟩) .empty
  have stores : (p.publishPages order {}).2.store = (p.publishPages p.atlas.shown {}).2.store :=
    regular.store_eq unambiguous ordered.consistent straight.consistent fun id => by
      simp only [ordered.stored, straight.stored, all.mem_iff]
  have entities := regular.entitiesOf_eq (ordered.asked fun _ => all.mem_iff.mpr)
    (straight.asked fun _ => id)
  have inOrder : p.publishIn order =
      p.gather (p.atlas.shown.map p.alone) (p.publishPages order {}).2 := by
    rw [← collected regular.made all, ← ordered.results]
    rfl
  have inLine : p.publish =
      p.gather (p.atlas.shown.map p.alone) (p.publishPages p.atlas.shown {}).2 := by
    rw [← straight.results]
    rfl
  have same : p.publishIn order = { p.publish with cache := (p.publishIn order).cache } := by
    rw [inOrder, inLine]
    simp only [gather, stores, entities]
  exact ⟨same, by rw [same]; rfl⟩

theorem publish_order_reverse :
    let other : External := .ofEntities "com.example.other" ["Other"] [{
      summary := "Things.", availability := [], kind := "symbol"
      reference := { bundle := "com.example.other", path := ["Other", "Thing"] }
      role := "class", title := "Thing", url := "/documentation/other/thing" }] []
    let inputs : Inputs := { symbolGraphs := [⟨"Kit.symbols.json", {
      module := "Kit"
      edges := [⟨"inheritsFrom", "s:Part", "s:Thing", some "Other.Thing"⟩]
      symbols := [{
        language := "swift", precise := "s:Part", kindName := "Class"
        kindIdentifier := "swift.class", title := "Part", path := ["Part"] }] }⟩] }
    let p : Project := .ofInputs {} inputs [other]
    let order := p.atlas.shown.reverse
    (order.map fun page => (p.uses page).length) = [2, 1] ∧
      (p.publishPages order {}).1 = order.map p.alone ∧
      p.publishIn order = { p.publish with cache := (p.publishIn order).cache } ∧
      (p.publishIn order).lock = p.publish.lock := by
  intro other inputs p order
  have used : (order.map fun page => (p.uses page).length) = [2, 1] := by decide +kernel +revert
  have stays : (p.atlas.pageList.any fun page => page.content.isRedirect) = false := by
    decide +kernel +revert
  have unambiguous : p.Unambiguous order := by decide +kernel +revert
  have regular : p.Regular := {
    made := .built {} inputs
    described := fun e registered => List.mem_singleton.mp registered ▸ ⟨_, _, _, _, rfl⟩
    names := List.nodup_singleton _
    different := fun e registered => by
      rw [List.mem_singleton.mp registered]
      change "com.example.other" ≠ (Atlas.build {} inputs).1.bundle
      rw [(Atlas.build_steps {} inputs).bundle]
      decide
    acyclic := fun page member title target content => by
      simpa [content, Content.isRedirect] using List.any_eq_false.mp stays page member }
  have inside : ∀ page ∈ order, page ∈ p.atlas.pageList :=
    fun page member => (List.mem_filter.mp (List.mem_reverse.mp member)).1
  obtain ⟨results, rest⟩ := publish_order regular inside unambiguous
  exact ⟨used, results, rest (List.reverse_perm _)⟩

end Order

end Concordance.Project
