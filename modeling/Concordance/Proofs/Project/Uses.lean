import Mathlib
import Concordance.Project
import Concordance.Proofs.External
import Concordance.Proofs.Renderer.Shared
import Concordance.Proofs.Resolver.Pages

/-! # What pages use

A page uses the addresses that its links are resolved to, the pages that hold it and the
pages below it. Once its links are resolved, all of them are known, and what there is to
show of an address that is known does not depend on anything else that was asked.
-/

namespace Concordance.Project

variable {p : Project} {page : Page} {pages : List Page} {address : Address}
  {inquiries others : List Inquiry} {m : Resolver.Memory}

/-- What a page holds once its links are resolved, with nothing resolved before. -/
def resolved (p : Project) (page : Page) : Content :=
  (p.resolver.resolveContent page.address page.content {}).1

/-- The addresses that a page uses: the targets of its links, the pages that hold it, and those
below it that are shown. -/
def uses (p : Project) (page : Page) : List Address :=
  (Renderer.targets (p.resolved page).links).map Prod.fst
    ++ ((p.renderer []).ancestors page ++ (p.renderer []).uncurated page []).map Page.address

/-- A project that was made from inputs and described bundles, which have names of their own. -/
structure Formed (p : Project) : Prop where
  made : p.atlas.Made
  described : ∀ e ∈ p.externals, e.Described
  names : (p.externals.map External.bundle).Nodup
  different : ∀ e ∈ p.externals, e.bundle ≠ p.atlas.bundle

/-- A project that was made from inputs and described bundles. The bundles have names of their own,
and no page forwards in a circle. -/
structure Regular (p : Project) : Prop where
  made : p.atlas.Made
  described : ∀ e ∈ p.externals, e.Described
  names : (p.externals.map External.bundle).Nodup
  different : ∀ e ∈ p.externals, e.bundle ≠ p.atlas.bundle
  acyclic : p.resolver.Acyclic

theorem Regular.formed (regular : p.Regular) : p.Formed where
  made := regular.made
  described := regular.described
  names := regular.names
  different := regular.different

/-- No two addresses that the pages use share an identifier. -/
def Unambiguous (p : Project) (pages : List Page) : Prop :=
  ∀ a ∈ pages.flatMap p.uses, ∀ b ∈ pages.flatMap p.uses, a.identifier = b.identifier → a = b

instance (p : Project) (pages : List Page) : Decidable (p.Unambiguous pages) :=
  inferInstanceAs (Decidable (∀ a ∈ pages.flatMap p.uses, ∀ b ∈ pages.flatMap p.uses,
    a.identifier = b.identifier → a = b))

theorem leadWithin_uses (p : Project) (page : Page) :
    Renderer.LeadWithin (· ∈ p.uses page) (p.resolved page).links := by
  intro l member address resolved
  refine List.mem_append_left _ (List.mem_map.mpr ⟨(address, l.fallbackText), ?_, rfl⟩)
  exact List.mem_filterMap.mpr ⟨l, member, by rw [resolved]⟩

theorem ancestors_uses {above : Page} (member : above ∈ (p.renderer inquiries).ancestors page) :
    above.address ∈ p.uses page :=
  List.mem_append_right _ (List.mem_map_of_mem (List.mem_append_left _ member))

theorem uncurated_uses {below : Page} (member : below ∈ (p.renderer inquiries).uncurated page []) :
    below.address ∈ p.uses page :=
  List.mem_append_right _ (List.mem_map_of_mem (List.mem_append_right _ member))

namespace Formed

variable (formed : p.Formed)
include formed

theorem apart : p.resolver.Apart := by
  intro responder member
  obtain ⟨e, registered, rfl⟩ := List.mem_map.mp member
  exact formed.different e registered

theorem suited (member : page ∈ p.atlas.pageList) : p.atlas.Suited page :=
  formed.made.suited (formed.made.wellFormed.get?_address member)

theorem exists_answer (asked : p.resolver.Asked inquiries address) :
    ∃ (place : Nat) (e : External) (link : WrittenLink) (answer : Address),
      p.externals[place]? = some e ∧ ⟨place, link⟩ ∈ inquiries ∧ e.answer link = .ok answer ∧
      answer.page = address.page ∧ address.bundle = e.bundle ∧ address.path = link.components := by
  obtain ⟨link, responder, place, answer, claimed, asked, answered, page⟩ := asked
  simp only [Resolver.claimant?] at claimed
  obtain ⟨_, claimed⟩ | ⟨_, claimed⟩ := ite_eq_iff.mp claimed
  case inr => cases claimed
  have registered : p.resolver.responders[place]? = some responder :=
    List.mem_zipIdx_iff_getElem?.mp (List.mem_of_find?_eq_some claimed)
  obtain ⟨e, there, rfl⟩ := Option.map_eq_some_iff.mp
    ((List.getElem?_map (f := External.responder)).symm.trans registered)
  obtain ⟨bundle, path⟩ := (formed.described e (List.mem_of_getElem? there)).answer answered
  exact ⟨place, e, link, answer, there, asked, answered, page,
    (congrArg Address.bundle page).symm.trans bundle, (congrArg Address.path page).symm.trans path⟩

theorem entity?_of_asked (asked : p.resolver.Asked inquiries address) :
    p.externals.entity? inquiries address = p.externals.summary? address := by
  obtain ⟨place, e, link, answer, there, asked, _, _, bundle, path⟩ := formed.exists_answer asked
  exact Externals.entity?_of_asked formed.names there asked bundle path

end Formed

namespace Regular

variable (regular : p.Regular)
include regular

theorem apart : p.resolver.Apart := regular.formed.apart

theorem entity?_of_asked (asked : p.resolver.Asked inquiries address) :
    p.externals.entity? inquiries address = p.externals.summary? address :=
  regular.formed.entity?_of_asked asked

/-- What there is to show of an address that is known depends on nothing else that was asked. -/
theorem topic?_eq (known : p.resolver.Known inquiries address)
    (known' : p.resolver.Known others address) :
    (p.renderer inquiries).topic? address = (p.renderer others).topic? address := by
  have same : address.bundle ≠ p.atlas.bundle →
      p.externals.entity? inquiries address = p.externals.entity? others address := by
    intro elsewhere
    rw [regular.entity?_of_asked (known.resolve_left elsewhere),
      regular.entity?_of_asked (known'.resolve_left elsewhere)]
  simp only [Renderer.topic?, renderer, Externals.informants_entity?]
  by_cases here : address.bundle = p.atlas.bundle
  · simp only [here, beq_self_eq_true, if_true]
  · simp only [beq_eq_false_iff_ne.mpr here, Bool.false_eq_true, if_false, same here]

theorem known_of_page? {q : Page} (found : p.atlas.page? address = some q) :
    p.resolver.Known inquiries q.address := by
  have there : p.atlas.pages.get? address.page = some q := found
  refine Resolver.known_of_has (r := p.resolver) regular.made ?_
  change p.atlas.pages.has q.address = true
  rw [regular.made.wellFormed.own there]
  exact Option.isSome_of_eq_some there

theorem suited (member : page ∈ p.atlas.pageList) : p.atlas.Suited page :=
  regular.formed.suited member

/-- What a page holds once its links are resolved, and the failures among them, whatever was
resolved before. -/
theorem resolveContent_eq (kept : p.resolver.Kept m) (member : page ∈ p.atlas.pageList) :
    (p.resolver.resolveContent page.address page.content m).1 = p.resolved page ∧
      (p.resolver.resolveContent page.address page.content m).2.failures =
        (p.resolver.resolveContent page.address page.content {}).2.failures :=
  kept.settled.resolveContent_eq regular.made regular.apart regular.acyclic
    Resolver.Kept.empty.settled
    (fun l inside => ((regular.suited member).known l inside).parsed) page.address

theorem resolveContent_kept (kept : p.resolver.Kept m) (member : page ∈ p.atlas.pageList) :
    p.resolver.Kept (p.resolver.resolveContent page.address page.content m).2.memory ∧
      m.inquiries ⊆ (p.resolver.resolveContent page.address page.content m).2.memory.inquiries := by
  obtain ⟨after, more, _⟩ := kept.resolveContent regular.made regular.apart
    (regular.suited member).known page.address
  exact ⟨after, more⟩

/-- After the links of a page are resolved, all that the page uses is known. -/
theorem known_uses (kept : p.resolver.Kept m) (member : page ∈ p.atlas.pageList)
    (used : address ∈ p.uses page) :
    p.resolver.Known (p.resolver.resolveContent page.address page.content m).2.memory.inquiries
      address := by
  have known := (kept.resolveContent regular.made regular.apart (regular.suited member).known
    page.address).2.2
  rw [(regular.resolveContent_eq kept member).1] at known
  rcases List.mem_append.mp used with target | near
  · obtain ⟨⟨_, text⟩, listed, rfl⟩ := List.mem_map.mp target
    exact Renderer.LeadWithin.targets known listed
  · obtain ⟨q, listed, rfl⟩ := List.mem_map.mp near
    rcases List.mem_append.mp listed with above | below
    · simp only [Renderer.ancestors] at above
      split at above
      · obtain ⟨_, _, found⟩ := List.mem_filterMap.mp above
        exact regular.known_of_page? found
      · cases above
    · obtain ⟨_, _, found⟩ := List.mem_filterMap.mp (List.mem_filter.mp below).1
      exact regular.known_of_page? found

end Regular

end Concordance.Project
