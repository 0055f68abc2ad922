import Mathlib
import Concordance.Proofs.Atlas.Documents
import Concordance.Proofs.Markup.Anchors

/-! # Names of headings on pages

Every heading and every section on a page of an atlas is named by its own slug. Inserting
a page that was read keeps this, and so does adding relations and prose to one.
-/

namespace Concordance

theorem Gathering.ofFiles_anchored (preferred : String) (files : List SymbolGraphFile) :
    (ofFiles preferred files).Each fun s => s.content.docs.Anchored := by
  refine ofFiles_each (fun path module s _ => ?_) (fun s presentation own => ?_)
    (fun _ _ own => own) files
  · rw [SymbolContent.preferLanguage_docs, SymbolContent.ofDescription]
    dsimp only
    split
    · exact Markup.ofComment_anchored _
    · exact Markup.empty_anchored
  · rwa [SymbolContent.addPresentation, SymbolContent.preferLanguage_docs]

namespace Atlas

variable {a b : Atlas} {p : Page}

/-- An atlas on whose pages headings and sections have slugs for names. -/
def Anchored (a : Atlas) : Prop :=
  ∀ ⦃address : Address⦄ ⦃page : Page⦄, a.pages.get? address = some page → page.content.Anchored

theorem Anchored.insert (own : a.Anchored) (new : p.content.Anchored)
    (inserted : a.insert? p = some b) : b.Anchored := by
  intro address page found
  rcases (get?_insert?_iff inserted).mp found with ⟨_, rfl⟩ | before
  · exact new
  · exact own before

theorem Anchored.edit (own : a.Anchored) {f : Content → Content}
    (kept : ∀ content : Content, content.Anchored → (f content).Anchored) (address : Address) :
    (a.editContent address f).Anchored := by
  intro other page found
  obtain ⟨before, present, rfl | rfl⟩ := page_editContent found
  · exact own present
  · exact kept _ (own present)

end Atlas

namespace AtlasBuild

variable {b c : AtlasBuild} {root : Address} {d : Document}

theorem addModule_anchored (own : b.atlas.Anchored) (language module : String) :
    (b.addModule language module).atlas.Anchored := by
  rw [addModule]
  split
  · rename_i inserted
    exact own.insert (fun _ member => absurd member List.not_mem_nil) inserted
  · exact own

theorem relate_anchored (own : b.atlas.Anchored) (r : GatheredRelation) :
    (b.relate r).atlas.Anchored := by
  rw [relate]
  split
  · refine own.edit (fun content kept => ?_) _
    cases content with
    | symbol s => exact kept
    | article | redirect | tutorial => exact kept
  · exact own

theorem placeSymbols_anchored (own : b.atlas.Anchored) {g : Gathering}
    (gathered : ∀ s ∈ g.inOrder, s.content.docs.Anchored) :
    (b.placeSymbols g.inOrder).atlas.Anchored := by
  intro address page found
  have origin : (b.placeSymbols g.inOrder).atlas.pages.get? address = _ :=
    get?_placeLevels g.levels b address
  rw [found] at origin
  rcases Option.or_eq_some_iff.mp origin.symm with before | ⟨_, new⟩
  · exact own before
  · obtain ⟨p, first, rfl⟩ := Option.map_eq_some_iff.mp new
    obtain ⟨level, run, inside⟩ := symbol_mem_of_placements (List.mem_of_find?_eq_some first)
    refine gathered p.symbol ?_
    rw [← Gathering.flatten_levels]
    exact List.mem_flatten.mpr ⟨level, run, inside⟩

theorem Turn.anchored (turn : Turn root b d c) (own : b.atlas.Anchored) : c.atlas.Anchored := by
  intro address page found
  cases turn with
  | declined _ _ _ atlas => exact own (atlas ▸ found)
  | @added content _ parsed _ _ atlas =>
      rw [atlas.pages] at found
      split at found
      · cases found
        exact Document.page_anchored parsed
      · exact own found
  | @merged _ docs page content _ parsed _ _ atlas =>
      obtain ⟨prose, extended, pages⟩ := atlas.pages
      rw [pages] at found
      split at found
      · cases found
        have before : content.docs.Anchored := by
          have here := own atlas.there
          rwa [atlas.symbol] at here
        intro anchor member
        have split : anchor ∈ content.docs.anchors ++ docs.anchors := by
          rw [Markup.anchors, Markup.anchors, ← List.filterMap_append, ← extended.discussion]
          exact member
        rcases List.mem_append.mp split with old | new
        · exact before anchor old
        · exact Document.extension_anchored parsed anchor new
      · exact own found

theorem Run.anchored {documents : List Document} (run : Run root b documents c)
    (own : b.atlas.Anchored) : c.atlas.Anchored := by
  induction run with
  | done => exact own
  | turn first _ ih => exact ih (first.anchored own)

end AtlasBuild

namespace Atlas

theorem grounded_anchored (settings : Settings) (files : List SymbolGraphFile) :
    (grounded settings files).atlas.Anchored := by
  let g := Gathering.ofFiles settings.language files
  have gathered : ∀ s ∈ g.inOrder, s.content.docs.Anchored := fun s member =>
    (Gathering.ofFiles_anchored _ files).inOrder (Gathering.ofFiles_sound _ files) member
  rw [grounded, build, List.mergeSort_nil]
  refine AtlasBuild.addModule_anchored ?_ _ _
  refine List.foldlRecOn (motive := fun b : AtlasBuild => b.atlas.Anchored) g.relations
    AtlasBuild.relate ?_ fun b own r _ => AtlasBuild.relate_anchored own r
  refine AtlasBuild.placeSymbols_anchored ?_ gathered
  refine List.foldlRecOn (motive := fun b : AtlasBuild => b.atlas.Anchored) g.modules
    (AtlasBuild.addModule settings.language) ?_ fun b own module _ =>
      AtlasBuild.addModule_anchored own settings.language module
  exact fun _ _ found => by cases found

theorem build_anchored (settings : Settings) (inputs : Inputs) :
    (build settings inputs).1.Anchored := by
  rw [build_eq]
  exact (AtlasBuild.addDocuments_run (fun _ _ found => (build_wellFormed settings _).own found)
    _).anchored (grounded_anchored settings inputs.symbolGraphs)

/-- Whatever atlas there is, headings and sections on its pages have slugs for names. -/
theorem Made.anchored {a : Atlas} (made : a.Made) : a.Anchored := by
  cases made with
  | empty => exact fun _ _ found => by cases found
  | built settings inputs => exact build_anchored settings inputs

end Atlas

end Concordance
