import Mathlib
import Concordance.Atlas.Build
import Concordance.Proofs.Atlas.Insert
import Concordance.Proofs.Link.Parsed

/-! # Well-formed atlases

Every page stands under its own address and is a module's root page, the page of a
symbol or that of a document, below a page that is there. The indexes list just
these pages. Inserting such a page and editing what a symbol's page holds keep an
atlas well-formed.
-/

namespace Concordance.Atlas

variable {a b : Atlas} {p : Page}

/-- What pages there are, and where they stand. -/
inductive Placed (a : Atlas) (p : Page) : Prop where
  | module (root : p.parent = none) (own : p.address = a.address [p.name])
      (alone : p.distinction = none) (stays : p.content.isRedirect = false)
  | symbol {path : List String} {component : String} (below : p.parent = some (a.address path))
      (held : a.pages.has (a.address path) = true)
      (own : p.address = a.address (path ++ [component])) (told : p.distinction.isSome = true)
      (stays : p.content.isRedirect = false)
  | document {home : String} (below : p.parent = some (a.address [home]))
      (held : a.pages.has (a.address [home]) = true) (own : p.address = a.address [home, p.name])
      (alone : p.distinction = none)

/-- Atlases whose pages are placed, and whose indexes agree with the pages. -/
structure WellFormed (a : Atlas) : Prop where
  /-- The pages are in order of their addresses. -/
  rising : Assoc.Rising a.pages
  own : ∀ {address : Address} {page : Page}, a.pages.get? address = some page →
    page.address = address
  placed : ∀ {address : Address} {page : Page}, a.pages.get? address = some page → a.Placed page
  /-- The targets of pages that forward are links that were read. -/
  targets : ∀ {address : Address} {page : Page} {title : String} {target : WrittenLink},
    a.pages.get? address = some page → page.content = .redirect title target → target.Parsed
  /-- The roots are the pages that no page holds. -/
  roots : ∀ address, address ∈ a.roots ↔
    ∃ page, a.pages.get? address = some page ∧ page.parent = none
  /-- The pages below a page are those that it holds. -/
  below : ∀ above address, address ∈ a.children above ↔
    ∃ page, a.pages.get? address = some page ∧ page.parent = some above
  /-- Human paths name pages. -/
  named : ∀ {text : String} {address : Address},
    address ∈ (a.byHumanPath.get? text).getD [] → a.pages.has address = true
  /-- Unique identifiers name pages. -/
  precise : ∀ {precise : String} {address : Address},
    a.byPrecise.get? precise = some address → a.pages.has address = true

theorem WellFormed.empty (bundle : String) : WellFormed { bundle } where
  rising := List.Pairwise.nil
  own found := by cases found
  placed found := by cases found
  targets found := by cases found
  roots address := by simp
  below above address := by simp [children]
  named found := by simp at found
  precise found := by cases found

theorem Placed.mono {p : Page} (placed : a.Placed p) (bundle : b.bundle = a.bundle)
    (more : ∀ address, a.pages.has address = true → b.pages.has address = true) : b.Placed p := by
  have same (path : List String) : a.address path = b.address path := by simp [address, bundle]
  cases placed with
  | module root own alone stays => exact .module root (same _ ▸ own) alone stays
  | symbol below held own told stays =>
      exact .symbol (same _ ▸ below) (same _ ▸ more _ held) (same _ ▸ own) told stays
  | document below held own alone =>
      exact .document (same _ ▸ below) (same _ ▸ more _ held) (same _ ▸ own) alone

theorem WellFormed.insert (wf : a.WellFormed) (placed : a.Placed p)
    (target : ∀ title target, p.content = .redirect title target → target.Parsed)
    (inserted : a.insert? p = some b) : b.WellFormed where
  rising := pages_insert? inserted ▸ wf.rising.put _ _
  own found := by
    rcases (get?_insert?_iff inserted).mp found with ⟨here, same⟩ | before
    · rw [here, same]
    · exact wf.own before
  placed found := by
    have grow : ∀ address, a.pages.has address = true → b.pages.has address = true :=
      fun _ => has_insert? inserted
    rcases (get?_insert?_iff inserted).mp found with ⟨_, same⟩ | before
    · exact same ▸ placed.mono (bundle_insert? inserted) grow
    · exact (wf.placed before).mono (bundle_insert? inserted) grow
  targets found content := by
    rcases (get?_insert?_iff inserted).mp found with ⟨_, same⟩ | before
    · exact target _ _ (same ▸ content)
    · exact wf.targets before content
  roots address := by
    rw [mem_roots_insert? inserted, wf.roots]
    simp only [get?_insert?_iff inserted, or_and_right, exists_or, and_assoc]
    rw [or_comm]
    simp
  below above address := by
    rw [mem_children_insert? inserted, wf.below]
    simp only [get?_insert?_iff inserted, or_and_right, exists_or, and_assoc]
    rw [or_comm]
    simp
  named found := by
    rcases (mem_named_insert? inserted).mp found with before | ⟨here, _⟩
    · exact has_insert? inserted (wf.named before)
    · exact here ▸ has_insert?_self inserted
  precise found := by
    rcases precise_insert? inserted found with before | here
    · exact has_insert? inserted (wf.precise before)
    · exact here ▸ has_insert?_self inserted

/-- Editing that leaves alone whatever is not a symbol's. -/
def SymbolEdit (f : Content → Content) : Prop :=
  ∀ content, (∃ s t, content = .symbol s ∧ f content = .symbol t) ∨ f content = content

theorem SymbolEdit.redirect {f : Content → Content} (edit : SymbolEdit f) {content : Content}
    {title : String} {target : WrittenLink} :
    f content = .redirect title target ↔ content = .redirect title target := by
  rcases edit content with ⟨s, t, before, after⟩ | same
  · rw [after, before]
    constructor <;> intro other <;> cases other
  · rw [same]

theorem SymbolEdit.isRedirect {f : Content → Content} (edit : SymbolEdit f) (content : Content) :
    (f content).isRedirect = content.isRedirect := by
  rcases edit content with ⟨s, t, before, after⟩ | same
  · rw [after, before]
    rfl
  · rw [same]

theorem addRelation_symbolEdit (relation : Relation) :
    SymbolEdit (AtlasBuild.addRelation relation) := by
  intro content
  cases content with
  | symbol s => exact .inl ⟨_, _, rfl, rfl⟩
  | article | redirect | tutorial => exact .inr rfl

theorem addDocs_symbolEdit (docs : Markup) : SymbolEdit (AtlasBuild.addDocs docs) := by
  intro content
  cases content with
  | symbol s => exact .inl ⟨_, _, rfl, rfl⟩
  | article | redirect | tutorial => exact .inr rfl

theorem Placed.edit (placed : a.Placed p) {f : Content → Content} (edit : SymbolEdit f) :
    a.Placed { p with content := f p.content } := by
  cases placed with
  | module root own alone stays => exact .module root own alone ((edit.isRedirect _).trans stays)
  | symbol below held own told stays =>
      exact .symbol below held own told ((edit.isRedirect _).trans stays)
  | document below held own alone => exact .document below held own alone

theorem WellFormed.edit (wf : a.WellFormed) {f : Content → Content} (edit : SymbolEdit f)
    (address : Address) : (a.editContent address f).WellFormed := by
  have grow {page : Page} (placed : a.Placed page) : (a.editContent address f).Placed page :=
    placed.mono rfl fun k held => (has_editContent a address f k).trans held
  refine ⟨?_, ?_, ?_, ?_, ?_, ?_, ?_, ?_⟩
  · refine wf.rising.of_keys ?_
    rw [editContent_pages, Assoc.keys, Assoc.keys, List.map_map]
    rfl
  · intro k page found
    obtain ⟨before, present, rfl | rfl⟩ := page_editContent found
    · exact wf.own present
    · have own := wf.own present
      exact own
  · intro k page found
    obtain ⟨before, present, rfl | rfl⟩ := page_editContent found
    · exact grow (wf.placed present)
    · exact grow ((wf.placed present).edit edit)
  · intro k page title target found content
    obtain ⟨before, present, rfl | rfl⟩ := page_editContent found
    · exact wf.targets present content
    · exact wf.targets present (edit.redirect.mp content)
  · intro k
    rw [parent_editContent]
    exact wf.roots k
  · intro above k
    rw [parent_editContent]
    exact wf.below above k
  · intro text k found
    rw [has_editContent]
    exact wf.named found
  · intro precise k found
    rw [has_editContent]
    exact wf.precise found

theorem WellFormed.get?_address (wf : a.WellFormed) {page : Page} (member : page ∈ a.pageList) :
    a.pages.get? page.address = some page := by
  obtain ⟨⟨address, p⟩, entry, rfl⟩ := List.mem_map.mp member
  have found := wf.rising.get?_eq_some_iff.mpr entry
  rw [wf.own found, found]

theorem WellFormed.nodup_addresses (wf : a.WellFormed) : (a.pageList.map Page.address).Nodup := by
  have keys : a.pageList.map Page.address = a.pages.keys := by
    rw [pageList, Assoc.values, List.map_map]
    exact List.map_congr_left fun entry member => wf.own (wf.rising.get?_eq_some_iff.mpr member)
  rw [keys]
  exact wf.rising.nodup_keys

theorem WellFormed.address_path (wf : a.WellFormed) {address : Address}
    (held : a.pages.has address = true) : a.address address.path = address := by
  obtain ⟨page, present⟩ := Option.isSome_iff_exists.mp held
  have own := wf.own present
  cases wf.placed present with
  | module _ place _ _ | symbol _ _ place _ _ | document _ _ place _ => rw [← own, place]; rfl

theorem WellFormed.page_self (wf : a.WellFormed) {address : Address} {page : Page}
    (found : a.pages.get? address = some page) : address.page = address := by
  rw [← wf.address_path (Option.isSome_of_eq_some found)]
  rfl

theorem WellFormed.eq_of_path (wf : a.WellFormed) {one other : Address} {p q : Page}
    (here : a.pages.get? one = some p) (there : a.pages.get? other = some q)
    (same : one.path = other.path) : one = other := by
  rw [← wf.address_path (Option.isSome_of_eq_some here), same,
    wf.address_path (Option.isSome_of_eq_some there)]

theorem WellFormed.nodup_paths (wf : a.WellFormed) :
    (a.pageList.map fun page => page.address.path).Nodup := by
  have same : (a.pageList.map fun page => page.address.path) =
      (a.pageList.map Page.address).map Address.path := by rw [List.map_map]; rfl
  rw [same]
  refine wf.nodup_addresses.map_on fun one first other second path => ?_
  obtain ⟨p, here, rfl⟩ := List.mem_map.mp first
  obtain ⟨q, there, rfl⟩ := List.mem_map.mp second
  exact wf.eq_of_path (wf.get?_address here) (wf.get?_address there) path

end Concordance.Atlas
