import Mathlib
import Concordance.Proofs.Rendered.Variant
import Concordance.Proofs.Renderer.Shared

/-! # Pages in other languages

The override for another language changes the declarations that a page has, while rendering
makes a section for them where there is a declaration to show. Both give the same page if the
primary language and the other one have a declaration each, or neither has one. Where only the
other one has, the override loses it.
-/

namespace Concordance

/-- A page whose symbol looks as it does in another language. -/
def Page.presented (p : Page) (v : Presentation) : Page :=
  match p.content with
  | .symbol content => { p with content := .symbol { content with primary := v } }
  | _ => p

namespace Renderer

open Rendered (Section)

variable {r : Renderer} {page : Page} {own : SymbolContent}

theorem rising_parallel (r : Renderer) :
    Parallel (fun d d' => d = d' ∧ Assoc.Rising d.used) (fun _ => True) r r where
  atlas := rfl
  language := rfl
  web _ _ _ := keeps_iff_alike.mp fun _ rising => rising.putNew _ _
  dead _ _ := keeps_iff_alike.mp fun _ rising => rising.putNew _ _
  target address text _ := keeps_iff_alike.mp fun d rising => by
    rw [target_run]
    exact rising.putNew _ _

theorem render_rising (r : Renderer) (page : Page) (content : Content)
    (store : Rendered.References) : Assoc.Rising (r.render page content store).1.references :=
  keeps_iff_alike.mpr
    ((rising_parallel r).whole (fun _ _ => trivial) (fun _ _ => trivial) fun _ _ _ _ => trivial)
    { store } List.Pairwise.nil

def Prose (sections : List Section) : Prop :=
  ∀ s ∈ sections, ∃ blocks, s = .content blocks

theorem discussion_prose (blocks : List Block) (d : Draft) :
    Prose ((r.discussion blocks).run d).1 := by
  rw [discussion]
  split
  · exact List.forall_mem_nil _
  · exact List.forall_mem_singleton.mpr ⟨_, rfl⟩

theorem Prose.map_presentSection {sections : List Section} (prose : Prose sections)
    (v : Presentation) : sections.map (Rendered.Page.presentSection v) = sections := by
  refine (List.map_congr_left fun s member => ?_).trans (List.map_id' sections)
  obtain ⟨blocks, rfl⟩ := prose s member
  rfl

theorem declarations_eq (v : Presentation) : declarations v =
    if v.declaration = "" then []
    else [.declarations [{ languages := [v.language], text := v.declaration }]] := by
  simp only [declarations, String.isEmpty_iff]

theorem map_presentSection_declarations (primary v : Presentation) :
    (declarations primary).map (Rendered.Page.presentSection v) =
      if primary.declaration = "" then []
      else [.declarations [{ languages := [v.language], text := v.declaration }]] := by
  rw [declarations_eq]
  split <;> rfl

/-- A symbol's page and the page for another language have the same prose, and differ in nothing but
the language, the title and the section for the declaration. -/
theorem render_alike (r : Renderer) (shows : page.content = .symbol own) (content : SymbolContent)
    (store : Rendered.References) (v : Presentation) :
    let base := (r.render page (.symbol content) store).1
    ∃ prose, Prose prose ∧ base.overrides = [] ∧
      base.sections = declarations content.primary ++ prose ∧
      (r.render (page.presented v) (.symbol { content with primary := v }) store).1 = { base with
        language := v.language
        metadata := { base.metadata with title := v.title }
        sections := declarations v ++ prose } := by
  obtain ⟨address, kind, name, humanPath, parent, distinction, source, _⟩ := page
  cases shows
  intro base
  refine ⟨_, discussion_prose content.docs.discussion _, rfl, rfl, ?_⟩
  cases kind <;> rfl

theorem patched_plain {base : Rendered.Page} (plain : base.overrides = [])
    (references : Assoc.Rising base.references) (indexable : base.json.Indexable)
    (v : Presentation) : base.patched (base.overrideFor v).patch = .ok (base.present v) := by
  have none : { base with overrides := [] } = base := by rw [← plain]
  have held : Rendered.Page.Held { base with overrides := [] } :=
    ⟨references, List.forall_mem_nil _⟩
  have made := Rendered.Page.patched_overrideFor (v := v) plain indexable held
  rwa [none] at made

/-- An override makes the page for its language with the sections of the primary language, where
they were. -/
theorem patched_presented (r : Renderer) (shows : page.content = .symbol own)
    (content : SymbolContent) (store : Rendered.References)
    (indexable : (r.render page (.symbol content) store).1.json.Indexable) (v : Presentation) :
    let base := (r.render page (.symbol content) store).1
    let other := (r.render (page.presented v) (.symbol { content with primary := v }) store).1
    ∃ prose, Prose prose ∧ other.sections = declarations v ++ prose ∧
      base.patched (base.overrideFor v).patch = .ok { other with
        sections := (declarations content.primary).map (Rendered.Page.presentSection v) ++ prose } := by
  intro base other
  obtain ⟨prose, blocks, plain, sections, same⟩ := render_alike r shows content store v
  have bare : base.overrides = [] := plain
  have rising : Assoc.Rising base.references := render_rising r page (.symbol content) store
  have kept : base.sections.map (Rendered.Page.presentSection v) =
      (declarations content.primary).map (Rendered.Page.presentSection v) ++ prose := by
    have start : base.sections = declarations content.primary ++ prose := sections
    rw [start, List.map_append, blocks.map_presentSection]
  have whole : other = { base with
      language := v.language
      metadata := { base.metadata with title := v.title }
      sections := declarations v ++ prose } := same
  refine ⟨prose, blocks, by rw [whole], ?_⟩
  rw [patched_plain bare rising indexable v, Rendered.Page.present, kept, whole]

theorem ok_sections_iff {ε : Type} {p : Rendered.Page} {front front' rest : List Section}
    (own : p.sections = front' ++ rest) :
    (.ok { p with sections := front ++ rest } : Except ε Rendered.Page) = .ok p ↔
      front = front' := by
  constructor
  · intro same
    have sections : front ++ rest = p.sections :=
      congrArg Rendered.Page.sections (Except.ok.inj same)
    exact List.append_cancel_right (sections.trans own)
  · rintro rfl
    rw [← own]

/-- The override for a language makes the page that is rendered for the language, but for the
declaration: there is a section for it if the primary language has a declaration, and not if this
language has. So both pages are the same exactly if both languages have one, or neither has. -/
theorem render_presented (r : Renderer) (page : Page) {own : SymbolContent}
    (shows : page.content = .symbol own) (content : SymbolContent) (store : Rendered.References)
    (indexable : (r.render page (.symbol content) store).1.json.Indexable) :
    let base := (r.render page (.symbol content) store).1
    List.Forall₂ (fun v o =>
        let other := (r.render (page.presented v) (.symbol { content with primary := v }) store).1
        let declared : List Section :=
          [.declarations [{ languages := [v.language], text := v.declaration }]]
        ∃ prose, Prose prose ∧
          other.sections = (if v.declaration = "" then [] else declared) ++ prose ∧
          base.patched o.patch = .ok { other with
            sections := (if content.primary.declaration = "" then [] else declared) ++ prose } ∧
          (base.patched o.patch = .ok other ↔
            (content.primary.declaration = "" ↔ v.declaration = "")))
      content.variants (base.overridesFor content.variants) := by
  intro base
  refine List.forall₂_map_right_iff.mpr (List.forall₂_same.mpr fun v _ => ?_)
  intro other declared
  obtain ⟨prose, blocks, sections, patched⟩ :=
    patched_presented r shows content store indexable v
  rw [declarations_eq] at sections
  rw [map_presentSection_declarations] at patched
  refine ⟨prose, blocks, sections, patched, ?_⟩
  rw [patched, ok_sections_iff sections]
  by_cases primary : content.primary.declaration = "" <;>
    by_cases secondary : v.declaration = "" <;> simp [primary, secondary]

theorem render_presented_class :
    let r : Renderer := { atlas := { bundle := "kit" }, language := "swift" }
    let v : Presentation := ⟨"occ", "KITPart", "@interface KITPart"⟩
    let content : SymbolContent := {
      precise := "s:P", kind := ⟨"Class", "class"⟩, module := "Kit"
      primary := ⟨"swift", "Part", ""⟩, variants := [v] }
    let page : Page := {
      address := { bundle := "kit", path := ["Kit", "Part"] }, kind := .symbol, name := "Part"
      humanPath := ["Kit", "Part"], parent := some { bundle := "kit", path := ["Kit"] }
      content := .symbol content }
    let base := (r.render page (.symbol content) []).1
    let other := (r.render (page.presented v) (.symbol { content with primary := v }) []).1
    other.sections = [.declarations [{ languages := ["occ"], text := "@interface KITPart" }]] ∧
      base.patched (base.overrideFor v).patch = .ok { other with sections := [] } ∧
      base.patched (base.overrideFor v).patch ≠ .ok other := by
  intro r v content page base other
  have used : base.references = [] := by decide +kernel
  have topics : base.topics = [] := by decide +kernel
  have front : base.front = Rendered.Page.front {
      summary := [], hierarchy := [[]], language := "swift"
      identifier := "doc://kit/documentation/Kit/Part", kind := "symbol"
      metadata := {
        module := some "Kit", role := "class", roleHeading := "Class", symbolKind := some "class"
        title := "Part" } } := by
    rw [Rendered.Page.front, used, topics]
    rfl
  have indexable : base.json.Indexable := by
    rw [Rendered.Page.front_indexable rfl, front]
    simp [Rendered.Page.front, Rendered.listMember, Rendered.optionalMember,
      Rendered.Inline.listJson, Rendered.Page.hierarchyJson, Rendered.textsJson,
      Rendered.Page.identityJson, Rendered.Metadata.json, Rendered.Reference.mapJson, Pointer.largestIndex]
  have all := render_presented r page rfl content [] indexable
  obtain ⟨prose, -, sections, patched, both⟩ := (List.forall₂_cons.mp all).1
  have one : other.sections = [.declarations [⟨["occ"], "@interface KITPart"⟩]] := rfl
  have bare : prose = [] := List.self_eq_append_right.mp (one.symm.trans sections)
  refine ⟨one, ?_, fun same => ?_⟩
  · rw [bare] at patched
    exact patched
  · exact absurd ((both.mp same).mp rfl) (by decide)

end Renderer

end Concordance
