import Mathlib
import Concordance.Proofs.Atlas.Steps
import Concordance.Proofs.External
import Concordance.Proofs.Link.Heading

/-! # Bundles that link to each other

What one bundle publishes about its pages is what another needs to link to them: the
identifier of a page that is shown, with or without a heading, is answered with the page, and
the summary at hand afterwards is the page's own.
-/

namespace Concordance

variable {atlas : Atlas} {page : Page}

theorem Atlas.WellFormed.get?_ofEntities (wf : atlas.WellFormed) (member : page ∈ atlas.shown)
    (modules : List String) (assets : Assoc String String) :
    (External.ofEntities atlas.bundle modules atlas.entities assets).entities.get?
      page.address.path = some page.entity := by
  have own : ∀ p ∈ atlas.shown, p.address.bundle = atlas.bundle := by
    intro p shown
    have found := wf.get?_address (List.mem_of_mem_filter shown)
    rw [← wf.address_path (Option.isSome_of_eq_some found)]
    rfl
  have all : atlas.entities.filter (fun e => e.reference.bundle == atlas.bundle) =
      atlas.entities := by
    refine List.filter_eq_self.mpr fun e listed => ?_
    obtain ⟨p, shown, rfl⟩ := List.mem_map.mp listed
    exact beq_iff_eq.mpr (own p shown)
  -- All addresses name the one bundle, so that paths alone tell the pages apart.
  have paths : (atlas.shown.map fun p => p.address.path).Nodup :=
    wf.nodup_paths.sublist (List.filter_sublist.map _)
  have pairs : atlas.entities.map (fun e => (e.reference.path, e)) =
      atlas.shown.map fun p => (p.address.path, p.entity) := by
    rw [Atlas.entities, List.map_map]
    rfl
  have keys : Assoc.keys (atlas.shown.map fun p => (p.address.path, p.entity)) =
      atlas.shown.map fun p => p.address.path := by
    rw [Assoc.keys, List.map_map]
    rfl
  simp only [External.ofEntities, all, pairs]
  rw [Assoc.get?_ofList (keys ▸ paths)]
  exact Assoc.get?_of_mem (keys ▸ paths) (List.mem_map_of_mem member)

namespace External

theorem answer_of_get? {e : External} {link : WrittenLink} {entity : Entity}
    (found : e.entities.get? link.components = some entity) :
    e.answer link = .ok (entity.reference.heading link.fragment) := by
  simp only [answer, found]
  cases link.fragment <;> rfl

theorem entity?_of_get? {e : External} {address : Address} {link : WrittenLink} {entity : Entity}
    {place : Nat} {inquiries : List Inquiry} (found : e.entities.get? address.path = some entity)
    (own : entity.reference = address.page) (asked : ⟨place, link⟩ ∈ inquiries)
    (path : link.components = address.path) : e.entity? place inquiries address = some entity := by
  simp only [entity?, found, own, any_of_asked asked path, Option.bind_eq_bind, Option.bind_some,
    beq_self_eq_true, Bool.and_true, if_true]

/-- What one bundle publishes, another can link to. The identifier of a page that is shown and that
reads back, with or without a mark and any text behind it, is answered with the page or the heading
of the text's slug; and once that was asked, whatever else is, the summary at hand for it is that
of the page. -/
theorem answers_published (made : atlas.Made) (member : page ∈ atlas.shown)
    (read : Address.ofIdentifier page.address.identifier = .ok page.address)
    (modules : List String) (assets : Assoc String String) (text : Option String) :
    let published := ofEntities atlas.bundle modules atlas.entities assets
    ∃ link, WrittenLink.parse (page.address.identifier ++ text.elim "" ("#" ++ ·)) = .ok link ∧
      published.answer link = .ok (page.address.heading text) ∧
      ∀ place inquiries, ⟨place, link⟩ ∈ inquiries →
        ∃ entity, published.entity? place inquiries (page.address.heading text) = some entity ∧
          entity.title = page.title ∧ entity.kind = page.kind.name ∧
          entity.role = page.role ∧ entity.url = page.url := by
  intro published
  have wf := made.wellFormed
  have whole : page.address.page = page.address :=
    wf.page_self (wf.get?_address (List.mem_of_mem_filter member))
  obtain ⟨link, parsed, path, same⟩ :=
    Address.parse_heading (congrArg Address.fragment whole.symm) read text
  have found := wf.get?_ofEntities member modules assets
  refine ⟨link, parsed, ?_, fun place inquiries asked => ⟨page.entity, ?_, rfl, rfl, rfl, rfl⟩⟩
  · rw [answer_of_get? (path ▸ found), ← same]
    rfl
  · refine entity?_of_get? (by rwa [Address.heading_path]) ?_ asked
      (by rw [path, Address.heading_path])
    rw [Address.heading_page, whole]
    rfl

theorem answers_published_part :
    let inputs : Inputs := { symbolGraphs := [⟨"Kit.symbols.json", {
      module := "Kit"
      symbols := [{
        language := "swift", precise := "s:Part", kindName := "Class"
        kindIdentifier := "swift.class", title := "Part", path := ["Part"] }] }⟩] }
    let atlas := (Atlas.build {} inputs).1
    let published := ofEntities atlas.bundle ["Kit"] atlas.entities []
    let part : Address := { bundle := "com.example.documentation", path := ["Kit", "Part"] }
    ∃ page ∈ atlas.shown, page.address = part ∧
      ∃ link, WrittenLink.parse (part.identifier ++ "#See Also ") = .ok link ∧
        published.answer link = .ok { part with fragment := some "see-also" } ∧
        ∀ place inquiries, ⟨place, link⟩ ∈ inquiries →
          ∃ entity, published.entity? place inquiries { part with fragment := some "see-also" } =
              some entity ∧
            entity.title = page.title ∧ entity.kind = page.kind.name ∧
            entity.role = page.role ∧ entity.url = page.url := by
  intro inputs atlas published part
  have there : atlas.shown.any (fun page => page.address == part) = true := by
    decide +kernel +revert
  have read : Address.ofIdentifier part.identifier = .ok part := by decide +kernel +revert
  have slug : part.heading (some "See Also ") = { part with fragment := some "see-also" } := by
    decide +kernel +revert
  obtain ⟨page, member, own⟩ := List.any_eq_true.mp there
  have own : page.address = part := eq_of_beq own
  rw [← own] at read
  have made : atlas.Made := .built {} inputs
  have answered := answers_published made member read ["Kit"] [] (some "See Also ")
  rw [own, slug] at answered
  exact ⟨page, member, own, answered⟩

end External

end Concordance
