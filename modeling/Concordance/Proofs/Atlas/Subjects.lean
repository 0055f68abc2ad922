import Mathlib
import Concordance.Proofs.Atlas.Placements

/-! # What the pages of symbols are about

Once the symbols are placed, no later phase of building adds, removes or changes what
symbols there are pages of, how they are named and what tells them apart. So the page of
a symbol at an address is that of the first symbol that was placed there.
-/

namespace Concordance

/-- The symbol that a page is of, and the languages it is shown in. -/
def Page.subject? (p : Page) : Option (String × List String) :=
  if p.kind = .symbol then p.content.symbol?.map fun c => (c.precise, c.languages) else none

theorem Page.subject?_eq_some {p : Page} {precise : String} {languages : List String} :
    p.subject? = some (precise, languages) ↔ p.kind = .symbol ∧
      ∃ content, p.content = .symbol content ∧ content.precise = precise ∧
        content.languages = languages := by
  simp only [subject?, Option.ite_none_right_eq_some, Option.map_eq_some_iff, Prod.mk.injEq,
    Content.symbol?_eq_some]

def AtlasBuild.Placement.subject (p : Placement) : String × List String :=
  (p.symbol.precise, p.symbol.content.languages)

namespace Atlas

variable {α : Type} {f : Page → Option α} {a b c : Atlas} {p : Page}

/-- The symbol that the page at an address is of, and its languages. -/
def subjectAt? (a : Atlas) (address : Address) : Option (String × List String) :=
  (a.pages.get? address).bind Page.subject?

/-- What can be read off the pages of symbols alone, and is not touched by adding relations and prose
to them. -/
structure Lasting (f : Page → Option α) : Prop where
  modules : ∀ bundle language module, f (AtlasBuild.modulePage bundle language module) = none
  documents : ∀ root d (content : Content), content.symbol? = none →
    f (AtlasBuild.documentPage root d content) = none
  related : ∀ (page : Page) (r : Relation),
    f { page with content := AtlasBuild.addRelation r page.content } = f page
  extended : ∀ (page : Page) (docs : Markup),
    f { page with content := AtlasBuild.addDocs docs page.content } = f page

theorem documentKind_ne_symbol {content : Content} (none : content.symbol? = none) :
    AtlasBuild.documentKind content ≠ .symbol := by
  cases content with
  | symbol s => cases none
  | article | redirect | tutorial => exact nofun

theorem subject_lasting : Lasting Page.subject? where
  modules _ _ _ := rfl
  documents _ _ _ none := if_neg (documentKind_ne_symbol none)
  related := by
    rintro ⟨_, _, _, _, _, _, _, content⟩ r
    cases content <;> rfl
  extended := by
    rintro ⟨_, _, _, _, _, _, _, content⟩ docs
    cases content <;> rfl

/-- Atlases of which the same can be read at the same addresses. -/
def SameBy (f : Page → Option α) (a b : Atlas) : Prop :=
  ∀ address, (b.pages.get? address).bind f = (a.pages.get? address).bind f

theorem SameBy.refl (a : Atlas) : SameBy f a a := fun _ => rfl

theorem SameBy.trans (one : SameBy f a b) (other : SameBy f b c) : SameBy f a c :=
  fun address => (other address).trans (one address)

theorem SameBy.insert (inserted : a.insert? p = some b) (none : f p = none) : SameBy f a b := by
  intro address
  rw [get?_insert? inserted]
  split
  · rename_i here
    rw [here, get?_fresh inserted]
    exact none
  · rfl

theorem SameBy.edit {g : Content → Content}
    (kept : ∀ page : Page, f { page with content := g page.content } = f page)
    (a : Atlas) (address : Address) : SameBy f a (a.editContent address g) := by
  intro k
  rw [get?_editContent, Option.bind_map]
  congr 1
  funext page
  rw [Function.comp_apply]
  split
  · exact kept page
  · rfl

theorem SameBy.foldl {σ β : Type} (atlas : σ → Atlas) {g : σ → β → σ}
    (each : ∀ s x, SameBy f (atlas s) (atlas (g s x))) (l : List β) (s : σ) :
    SameBy f (atlas s) (atlas (l.foldl g s)) :=
  List.foldlRecOn (motive := fun t => SameBy f (atlas s) (atlas t)) l g (.refl _)
    fun t earlier x _ => earlier.trans (each t x)

end Atlas

namespace AtlasBuild

open Atlas (Lasting SameBy)

variable {α : Type} {f : Page → Option α} {b : AtlasBuild}

theorem insert_same {page : Page} (none : f page = none) :
    SameBy f b.atlas (b.insert page).atlas := by
  rw [insert]
  split
  · rename_i inserted
    exact .insert inserted none
  · exact .refl _

theorem addModule_same (lasting : Lasting f) (language module : String) :
    SameBy f b.atlas (b.addModule language module).atlas := by
  rw [addModule]
  split
  · rename_i inserted
    exact .insert inserted (lasting.modules _ _ _)
  · exact .refl _

theorem relate_same (lasting : Lasting f) (r : GatheredRelation) :
    SameBy f b.atlas (b.relate r).atlas := by
  rw [relate]
  split
  · exact .edit (fun page => lasting.related page _) _ _
  · exact .refl _

theorem addDocument_same (lasting : Lasting f) (root : Address)
    (state : AtlasBuild × List Extension) (d : Document) :
    SameBy f state.1.atlas (addDocument root state d).1.atlas := by
  rw [addDocument]
  rcases parsed : d.parse with m | content | ⟨target, docs⟩
  · exact .refl _
  · exact insert_same (lasting.documents _ _ _ (Document.page_of_ofBlocks parsed).2.1)
  · exact .refl _

theorem extend_same (lasting : Lasting f) (root : Address) (e : Extension) :
    SameBy f b.atlas (extend root b e).atlas := by
  rw [extend]
  split
  · split
    · exact .edit (fun page => lasting.extended page _) _ _
    · exact .refl _
  · exact .refl _
  · exact .refl _

theorem addDocuments_eq (root : Address) (b : AtlasBuild) (documents : List Document) :
    b.addDocuments root documents =
      (documents.foldl (addDocument root) (b, [])).2.foldl (extend root)
        (documents.foldl (addDocument root) (b, [])).1 := rfl

theorem addDocuments_same (lasting : Lasting f) (root : Address) (documents : List Document) :
    SameBy f b.atlas (b.addDocuments root documents).atlas := by
  have pages := SameBy.foldl (fun s : AtlasBuild × List Extension => s.1.atlas)
    (addDocument_same lasting root) documents (b, [])
  rw [addDocuments_eq]
  exact pages.trans (.foldl AtlasBuild.atlas (fun b e => extend_same lasting root e) _ _)

/-- An atlas of nothing but root pages of modules. -/
def OnlyRoots (a : Atlas) : Prop :=
  ∀ address page, a.pages.get? address = some page →
    page.kind = .module ∧ address.path.length = 1

theorem addModules_onlyRoots (language : String) (modules : List String)
    (only : OnlyRoots b.atlas) : OnlyRoots (modules.foldl (addModule language) b).atlas := by
  refine List.foldlRecOn (motive := fun c : AtlasBuild => OnlyRoots c.atlas) modules _ only
    fun c only module _ => ?_
  rw [addModule]
  split
  · rename_i inserted
    intro address page found
    rcases (Atlas.get?_insert?_iff inserted).mp found with ⟨rfl, rfl⟩ | before
    · exact ⟨rfl, rfl⟩
    · exact only address page before
  · exact only

end AtlasBuild

namespace Atlas

variable (settings : Settings) (inputs : Inputs)

def gathering : Gathering := .ofFiles settings.language inputs.symbolGraphs

/-- A build after the modules and before the symbols. -/
def foundation : AtlasBuild :=
  (gathering settings inputs).modules.foldl (AtlasBuild.addModule settings.language)
    { atlas := { bundle := settings.bundle }, problems := (gathering settings inputs).problems }

/-- Where the symbols of a project are placed, in the order in which their pages are inserted. -/
def placements : List AtlasBuild.Placement :=
  (foundation settings inputs).placements (gathering settings inputs).levels

/-- The page below which documents stand. -/
def home : Address where
  bundle := settings.bundle
  path := [AtlasBuild.homeModule settings (gathering settings inputs)]

theorem build_of_sorted
    (symbols : (gathering settings inputs).symbols.values.Pairwise fun s t => s.le t = true)
    (documents : inputs.documents.Pairwise fun d e => FilePath.le d.path e.path = true) :
    build settings inputs =
      let g := gathering settings inputs
      let placed := (foundation settings inputs).placeSymbols g.symbols.values
      let b := ((g.relations.foldl AtlasBuild.relate placed).addModule settings.language
        (AtlasBuild.homeModule settings g)).addDocuments (home settings inputs) inputs.documents
      (b.atlas, b.problems) := by
  have inOrder : (gathering settings inputs).inOrder = (gathering settings inputs).symbols.values :=
    List.mergeSort_of_pairwise symbols
  rw [build, List.mergeSort_of_pairwise documents]
  simp only [AtlasBuild.addGathering]
  rw [← gathering, inOrder]
  rfl

theorem foundation_onlyRoots : AtlasBuild.OnlyRoots (foundation settings inputs).atlas :=
  AtlasBuild.addModules_onlyRoots _ _ fun _ _ none => by cases none

theorem foundation_steps :
    Steps { bundle := settings.bundle } (foundation settings inputs).atlas ∧
      (foundation settings inputs).atlas.Fresh (gathering settings inputs).inOrder := by
  obtain ⟨steps, early, _⟩ := AtlasBuild.addModules_steps
    (b := { atlas := { bundle := settings.bundle }
            problems := (gathering settings inputs).problems })
    settings.language (gathering settings inputs).modules fun _ => not_describes_empty _
  exact ⟨steps, fresh_inOrder (Gathering.ofFiles_sound _ _) early⟩

theorem parent_of_placements {p : AtlasBuild.Placement} (member : p ∈ placements settings inputs) :
    p.parent.path ≠ [] ∧ p.parent = { bundle := settings.bundle, path := p.parent.path } := by
  obtain ⟨steps, fresh⟩ := foundation_steps settings inputs
  rw [← Gathering.flatten_levels] at fresh
  have below := AtlasBuild.parent_of_placements (steps.wellFormed (.empty _)) fresh member
  rwa [Atlas.address, steps.bundle] at below

variable {settings inputs} in
theorem symbol_of_placements {p : AtlasBuild.Placement}
    (member : p ∈ placements settings inputs) :
    p.symbol ∈ (gathering settings inputs).inOrder := by
  obtain ⟨level, run, inside⟩ := AtlasBuild.symbol_mem_of_placements member
  rw [← Gathering.flatten_levels]
  exact List.mem_flatten.mpr ⟨level, run, inside⟩

/-- What lasts of the page at an address is that of the first symbol placed there. -/
theorem build_lasting {α : Type} {f : Page → Option α} (lasting : Lasting f) (address : Address) :
    ((build settings inputs).1.pages.get? address).bind f =
      ((placements settings inputs).find? fun p => p.address == address).bind fun p => f p.page := by
  let g := gathering settings inputs
  let placed := (foundation settings inputs).placeSymbols g.inOrder
  let related := g.relations.foldl AtlasBuild.relate placed
  let documents := inputs.documents.mergeSort fun d e => FilePath.le d.path e.path
  have relations : SameBy f placed.atlas related.atlas :=
    .foldl AtlasBuild.atlas (fun _ r => AtlasBuild.relate_same lasting r) g.relations placed
  have homes := AtlasBuild.addModule_same (b := related) lasting settings.language
    (AtlasBuild.homeModule settings g)
  have later := (relations.trans homes).trans
    (AtlasBuild.addDocuments_same lasting (home settings inputs) documents)
  refine (later address).trans ?_
  have found := AtlasBuild.get?_placeLevels g.levels (foundation settings inputs) address
  change placed.atlas.pages.get? address = _ at found
  rw [found, ← placements]
  cases root : (foundation settings inputs).atlas.pages.get? address with
  | none =>
      rw [Option.none_or, Option.bind_map]
      rfl
  | some page =>
      -- Root pages have paths of one component, and symbols have longer ones.
      obtain ⟨_, short⟩ := foundation_onlyRoots settings inputs address page root
      have nowhere : ((placements settings inputs).find? fun p => p.address == address) = none := by
        rw [List.find?_eq_none]
        intro p member here
        have long := (parent_of_placements settings inputs member).1
        rw [← eq_of_beq here] at short
        have size : (p.parent.path ++ [p.component]).length = 1 := short
        exact long (by simpa using size)
      rw [nowhere, Option.some_or, ← root]
      exact (SameBy.foldl AtlasBuild.atlas
        (fun _ module => AtlasBuild.addModule_same lasting settings.language module) g.modules _)
        address

theorem build_subjectAt? (address : Address) :
    (build settings inputs).1.subjectAt? address =
      ((placements settings inputs).find? fun p => p.address == address).map
        AtlasBuild.Placement.subject := by
  rw [subjectAt?, build_lasting settings inputs subject_lasting, Option.map_eq_bind]
  rfl

/-- What pages of symbols are called, and what tells the symbols apart. -/
def label? (page : Page) : Option (PageKind × String × Option Distinction) :=
  if page.kind = .symbol ∨ page.distinction.isSome then
    some (page.kind, page.name, page.distinction)
  else none

theorem label_lasting : Lasting label? where
  modules _ _ _ := rfl
  documents _ _ _ none := if_neg (by
    simp [AtlasBuild.documentPage, documentKind_ne_symbol none])
  related _ _ := rfl
  extended _ _ := rfl

variable {settings inputs} in
/-- The page of a symbol, and any page with something to tell it apart, has that and its name from a
symbol that was placed. -/
theorem exists_placement {address : Address} {page : Page}
    (found : (build settings inputs).1.pages.get? address = some page)
    (symbolic : page.kind = .symbol ∨ page.distinction.isSome) :
    ∃ p ∈ placements settings inputs, p.address = address ∧ page.kind = .symbol ∧
      page.name = p.symbol.name ∧ page.distinction = some p.symbol.distinction := by
  have lasting := build_lasting settings inputs label_lasting address
  rw [found, Option.bind_some, label?, if_pos symbolic] at lasting
  obtain ⟨p, placed, label⟩ := Option.bind_eq_some_iff.mp lasting.symm
  obtain ⟨kind, label⟩ := Prod.mk.inj (Option.some.inj label)
  obtain ⟨name, told⟩ := Prod.mk.inj label
  have here := List.find?_some placed
  exact ⟨p, List.mem_of_find?_eq_some placed, eq_of_beq here, kind.symm, name.symm, told.symm⟩

end Atlas

end Concordance
