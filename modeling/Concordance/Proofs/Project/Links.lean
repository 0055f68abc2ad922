import Mathlib
import Concordance.Proofs.Lock
import Concordance.Proofs.Project.Independence

/-! # Links into other bundles

The pages of other bundles that any link leads to, whether directly, through pages that
forward or from a relation, are those whose summaries are published and locked.
-/

namespace Concordance

namespace Project

variable {p : Project} {page : Page} {pages rest : List Page} {shared middle : Shared}
  {result : PageResult} {results : List PageResult} {outcome : List PageResult × Shared}
  {address : Address} {inquiries : List Inquiry}

/-- A link on the page leads to a page of another bundle, or to a heading on it. -/
def LinksTo (p : Project) (page : Page) (address : Address) : Prop :=
  ∃ target, (∃ l ∈ page.content.links, p.resolver.Targets page.address l target) ∧
    target.bundle ≠ p.atlas.bundle ∧ address = target.page

/-- A publication that records the pages of other bundles that any page which is shown has links
to, by their summaries in order of their addresses. Its lock has the checksum of the publication,
and an entry for each summary unless two of them share an identifier. -/
structure RecordsLinks (p : Project) (out : Publication) : Prop where
  rising : (out.externalEntities.map Entity.reference).Pairwise fun a b => compare a b = .lt
  exact : ∀ address, address ∈ out.externalEntities.map Entity.reference ↔
    ∃ page ∈ p.atlas.shown, p.LinksTo page address
  checksum : out.lock.checksum = out.checksum
  entries : (out.externalEntities.map fun e => e.reference.identifier).Nodup →
    out.lock.entries.Perm (out.externalEntities.map LockEntry.ofEntity)

/-- Other bundles whose summaries are of whole pages. -/
def WholePages (p : Project) : Prop :=
  ∀ e ∈ p.externals, ∀ entry ∈ e.entities, entry.2.reference.fragment = none

/-- What publishing pages leaves of their links into other bundles. -/
structure Traces (p : Project) (pages : List Page) (shared : Shared)
    (outcome : List PageResult × Shared) : Prop where
  addresses : (outcome.1.map fun result => result.page.address) = pages.map Page.address
  kept : p.resolver.Kept outcome.2.memory
  more : shared.memory.inquiries ⊆ outcome.2.memory.inquiries
  external : ∀ address, (∃ result ∈ outcome.1, address ∈ result.external) ↔
    ∃ page ∈ pages, p.LinksTo page address
  asked : ∀ result ∈ outcome.1, ∀ address ∈ result.external,
    p.resolver.Asked outcome.2.memory.inquiries address

theorem Traces.cons (first : p.Traces [page] shared ([result], middle))
    (later : p.Traces rest middle outcome) :
    p.Traces (page :: rest) shared (result :: outcome.1, outcome.2) where
  addresses := by
    rw [List.map_cons, List.map_cons, later.addresses]
    exact congrArg (· :: _) (List.singleton_inj.mp first.addresses)
  kept := later.kept
  more := List.Subset.trans first.more later.more
  external address := by
    have here := first.external address
    simp only [List.mem_singleton, exists_eq_left] at here
    rw [List.exists_mem_cons_iff, List.exists_mem_cons_iff, here, later.external]
  asked := by
    simp only [List.forall_mem_cons]
    exact ⟨fun address listed =>
      (first.asked result (List.mem_singleton_self _) address listed).mono later.more, later.asked⟩

theorem mem_external {bundle : String} {links : List Link} :
    address ∈ links.filterMap (externalTarget? bundle) ↔
      ∃ target, (∃ l ∈ links, l.destination = .resolved target) ∧ target.bundle ≠ bundle ∧
        address = target.page := by
  rw [List.mem_filterMap]
  constructor
  · rintro ⟨l, inside, found⟩
    obtain ⟨target, resolved, elsewhere, same⟩ := externalTarget?_eq_some found
    exact ⟨target, ⟨l, inside, resolved⟩, elsewhere, same⟩
  · rintro ⟨target, ⟨l, inside, resolved⟩, elsewhere, rfl⟩
    exact ⟨l, inside, by simp [externalTarget?, resolved, elsewhere]⟩

theorem reference_of_entity? {entity : Entity}
    (found : p.externals.entity? inquiries address = some entity) :
    entity.reference = address.page := by
  obtain ⟨⟨e, place⟩, _, held⟩ := Option.bind_eq_some_iff.mp found
  obtain ⟨held, _, checked⟩ := Option.bind_eq_some_iff.mp held
  obtain ⟨same, found⟩ | ⟨_, none⟩ := ite_eq_iff.mp checked
  · cases found
    exact eq_of_beq (Bool.and_eq_true_iff.mp same).1
  · cases none

namespace Formed

variable (formed : p.Formed)
include formed

theorem publishPage_traces (there : page ∈ p.atlas.pageList)
    (kept : p.resolver.Kept shared.memory) :
    p.Traces [page] shared ([(p.publishPage page shared).1], (p.publishPage page shared).2) := by
  have suited := formed.suited there
  have plain : page.address.page = page.address :=
    formed.made.wellFormed.page_self (formed.made.wellFormed.get?_address there)
  obtain ⟨after, more, known⟩ :=
    kept.resolveContent formed.made formed.apart suited.known page.address
  have targets (target : Address) :
      (∃ l ∈ (p.resolver.resolveContent page.address page.content shared.memory).1.links,
        l.destination = .resolved target) ↔
          ∃ l ∈ page.content.links, p.resolver.Targets page.address l target :=
    kept.settled.resolveContent_targets formed.made formed.apart plain fun l inside =>
      (suited.known l inside).parsed
  have external (address : Address) : address ∈ (p.publishPage page shared).1.external ↔
      ∃ target, (∃ l ∈ (p.resolver.resolveContent page.address page.content shared.memory).1.links,
        l.destination = .resolved target) ∧ target.bundle ≠ p.atlas.bundle ∧
          address = target.page := mem_external
  exact {
    addresses := rfl
    kept := after
    more := more
    external := fun address => by
      simp only [List.mem_singleton, exists_eq_left, external, targets, LinksTo]
    asked := fun result only address listed => by
      rw [List.mem_singleton.mp only] at listed
      obtain ⟨target, ⟨l, inside, resolved⟩, elsewhere, rfl⟩ := (external address).mp listed
      exact ((known l inside target resolved).resolve_left elsewhere).of_page target.page_page }

/-- However many pages are published, and in whatever order. The induction is on the pages. -/
theorem publishPages_traces (inside : ∀ page ∈ pages, page ∈ p.atlas.pageList)
    (kept : p.resolver.Kept shared.memory) :
    p.Traces pages shared (p.publishPages pages shared) := by
  induction pages generalizing shared with
  | nil =>
      exact {
        addresses := rfl, kept, more := List.Subset.refl _
        external := fun address => by simp [publishPages]
        asked := List.forall_mem_nil _ }
  | cons page rest ih =>
      simp only [List.forall_mem_cons] at inside
      have first := formed.publishPage_traces inside.1 kept
      exact first.cons (ih inside.2 first.kept)

theorem exists_entity (whole : p.WholePages) (asked : p.resolver.Asked inquiries address)
    (plain : address.page = address) :
    ∃ entity, p.externals.entity? inquiries address = some entity := by
  rw [formed.entity?_of_asked asked]
  obtain ⟨place, e, link, answer, there, _, answered, page, bundle, path⟩ :=
    formed.exists_answer asked
  obtain ⟨entity, found, named⟩ := External.answer_ok answered
  have same : entity.reference.page = address := by
    rw [← plain, ← page]
    rcases named with rfl | ⟨text, rfl⟩
    · rfl
    · exact (Address.withFragment_page _ _).symm
  have unmarked : entity.reference.page = entity.reference := by
    have none := whole e (List.mem_of_getElem? there) _ (Assoc.mem_of_get? found)
    cases reference : entity.reference
    simp_all [Address.page]
  have own : entity.reference = address := unmarked.symm.trans same
  refine ⟨entity, ?_⟩
  rw [Externals.summary?, bundle, Externals.ofBundle?_eq_some formed.names there]
  simp [path, found, plain, own]

end Formed

theorem Formed.mem_entitiesOf (formed : p.Formed) (whole : p.WholePages) {addresses : List Address}
    (asked : ∀ address ∈ addresses, p.resolver.Asked inquiries address)
    (plain : ∀ address ∈ addresses, address.page = address) :
    ((p.entitiesOf inquiries addresses).map Entity.reference).Pairwise
        (fun a b => compare a b = .lt) ∧
      ∀ address, address ∈ (p.entitiesOf inquiries addresses).map Entity.reference ↔
        address ∈ addresses := by
  let pairs := addresses.filterMap fun address =>
    (p.externals.entity? inquiries address).map fun entity => (address, entity)
  have keys : (p.entitiesOf inquiries addresses).map Entity.reference =
      (Assoc.ofListFirst pairs).keys := by
    rw [entitiesOf, Assoc.values, List.map_map]
    refine List.map_congr_left fun entry member => ?_
    obtain ⟨address, listed, made⟩ := List.mem_filterMap.mp (Assoc.mem_ofListFirst member)
    obtain ⟨entity, found, rfl⟩ := Option.map_eq_some_iff.mp made
    exact (reference_of_entity? found).trans (plain address listed)
  rw [keys]
  refine ⟨List.pairwise_map.mpr (Assoc.rising_ofListFirst pairs), fun address => ?_⟩
  rw [Assoc.mem_keys_ofListFirst, List.mem_map]
  constructor
  · rintro ⟨entry, member, rfl⟩
    obtain ⟨address, listed, found⟩ := List.mem_filterMap.mp member
    obtain ⟨entity, _, rfl⟩ := Option.map_eq_some_iff.mp found
    exact listed
  · intro listed
    obtain ⟨entity, found⟩ :=
      formed.exists_entity whole (asked address listed) (plain address listed)
    exact ⟨(address, entity), List.mem_filterMap.mpr ⟨address, listed, by rw [found]; rfl⟩, rfl⟩

theorem Formed.gather_recordsLinks (formed : p.Formed) (whole : p.WholePages)
    (external : ∀ address, (∃ result ∈ results, address ∈ result.external) ↔
      ∃ page ∈ p.atlas.shown, p.LinksTo page address)
    (asked : ∀ result ∈ results, ∀ address ∈ result.external,
      p.resolver.Asked shared.memory.inquiries address) :
    p.RecordsLinks (p.gather results shared) := by
  have plain : ∀ address ∈ results.flatMap PageResult.external, address.page = address := by
    intro address listed
    obtain ⟨_, _, target, _, _, rfl⟩ := (external address).mp (List.mem_flatMap.mp listed)
    exact target.page_page
  have inquired : ∀ address ∈ results.flatMap PageResult.external,
      p.resolver.Asked shared.memory.inquiries address := by
    intro address listed
    obtain ⟨result, member, inside⟩ := List.mem_flatMap.mp listed
    exact asked result member address inside
  obtain ⟨rising, exact⟩ := formed.mem_entitiesOf whole inquired plain
  exact {
    rising := rising
    exact := fun address => (exact address).trans (List.mem_flatMap.trans (external address))
    checksum := rfl
    entries := fun distinct => Lock.ofEntries_perm _ (by rwa [List.map_map]) }

theorem mem_collected (made : p.atlas.Made) {order : List Page} (all : order.Perm p.atlas.shown)
    (addresses : (results.map fun result => result.page.address) = order.map Page.address)
    (result : PageResult) :
    result ∈ (p.atlas.shown.filterMap fun page =>
      results.find? fun result => result.page.address == page.address) ↔ result ∈ results := by
  have distinct : (results.map fun result => result.page.address).Nodup := by
    rw [addresses, (all.map Page.address).nodup_iff]
    exact (List.filter_sublist.map Page.address).nodup made.wellFormed.nodup_addresses
  constructor
  · intro member
    obtain ⟨page, _, found⟩ := List.mem_filterMap.mp member
    exact List.mem_of_find?_eq_some found
  · intro member
    have listed : result.page.address ∈ order.map Page.address :=
      addresses ▸ List.mem_map_of_mem member
    obtain ⟨page, inside, same⟩ := List.mem_map.mp listed
    refine List.mem_filterMap.mpr ⟨page, all.mem_iff.mp inside, ?_⟩
    obtain ⟨first, found⟩ : ∃ first,
        (results.find? fun result => result.page.address == page.address) = some first :=
      Option.isSome_iff_exists.mp (List.find?_isSome.mpr ⟨result, member, by simp [same]⟩)
    have here : first.page.address = page.address := by simpa using List.find?_some found
    rw [found, List.inj_on_of_nodup_map distinct (List.mem_of_find?_eq_some found) member
      (here.trans same)]

/-- The pages of other bundles that links lead to are recorded, in whatever order pages are
published. -/
theorem publish_recordsLinks (formed : p.Formed) (whole : p.WholePages) :
    p.RecordsLinks p.publish ∧
      ∀ order, order.Perm p.atlas.shown → p.RecordsLinks (p.publishIn order) := by
  have traces (order : List Page) (all : order.Perm p.atlas.shown) :
      p.Traces order {} (p.publishPages order {}) :=
    formed.publishPages_traces (fun page member => (List.mem_filter.mp (all.mem_iff.mp member)).1)
      .empty
  constructor
  · have straight := traces p.atlas.shown (.refl _)
    exact formed.gather_recordsLinks whole straight.external straight.asked
  · intro order all
    have ordered := traces order all
    have same := mem_collected formed.made all ordered.addresses
    refine formed.gather_recordsLinks whole (fun address => ?_) fun result member => ?_
    · simp only [same, ordered.external, all.mem_iff]
    · exact ordered.asked result ((same result).mp member)

theorem publish_recordsLinks_relations :
    let form : Entity := {
      kind := "symbol", reference := { bundle := "com.example.other", path := ["Other", "Form"] }
      role := "protocol", title := "Form", url := "/documentation/other/form" }
    let start : Entity := {
      kind := "article", reference := { bundle := "com.example.other", path := ["Other", "Start"] }
      title := "Start", url := "/documentation/other/start" }
    let thing : Entity := {
      kind := "symbol", reference := { bundle := "com.example.other", path := ["Other", "Thing"] }
      role := "class", title := "Thing", url := "/documentation/other/thing" }
    let other : External := .ofEntities "com.example.other" ["Other"] [start, thing, form] []
    let inputs : Inputs := { symbolGraphs := [⟨"Kit.symbols.json", {
      module := "Kit"
      edges := [⟨"inheritsFrom", "s:Part", "s:Thing", some "Other.Thing"⟩,
        ⟨"conformsTo", "s:Part", "s:Form", some "Other.Form"⟩]
      symbols := [{
        language := "swift", precise := "s:Part", kindName := "Class"
        kindIdentifier := "swift.class", title := "Part", path := ["Part"] }] }⟩] }
    let p : Project := .ofInputs {} inputs [other]
    p.publish.externalEntities = [form, thing] ∧ p.RecordsLinks p.publish ∧
      ∀ order, order.Perm p.atlas.shown → p.RecordsLinks (p.publishIn order) := by
  intro form start thing other inputs p
  have found : p.publish.externalEntities = [form, thing] := by decide +kernel +revert
  have whole : p.WholePages := fun e registered => by
    rw [List.mem_singleton.mp registered]
    decide +kernel +revert
  have formed : p.Formed := {
    made := .built {} inputs
    described := fun e registered => List.mem_singleton.mp registered ▸ ⟨_, _, _, _, rfl⟩
    names := List.nodup_singleton _
    different := fun e registered => by
      rw [List.mem_singleton.mp registered]
      change "com.example.other" ≠ (Atlas.build {} inputs).1.bundle
      rw [(Atlas.build_steps {} inputs).bundle]
      decide }
  exact ⟨found, publish_recordsLinks formed whole⟩

end Project

end Concordance
