import Mathlib
import Concordance.Proofs.Atlas.Steps

/-! # What pages hold

A page forwards exactly if it is of the kind of stubs. Every link that a page shows was
read from a text if it is to be resolved, and leads to a page that is there if it is
resolved already. Each step of building keeps this.
-/

namespace Concordance.Atlas

variable {a b : Atlas} {p : Page}

theorem Knows.mono (kept : ∀ {address : Address}, a.pages.has address = true →
    b.pages.has address = true) {l : Link} (known : a.Knows l) : b.Knows l :=
  ⟨known.parsed, fun target resolved => kept (known.held target resolved)⟩

theorem knows_of_written {l : Link} (written : l.Written) : a.Knows l :=
  ⟨written.parsed, fun target resolved => absurd resolved (written.unresolved target)⟩

/-- A page whose kind says whether it forwards, with links as they have to be. -/
structure Suited (a : Atlas) (p : Page) : Prop where
  forwards : p.kind = .redirect ↔ p.content.isRedirect = true
  known : ∀ l ∈ p.content.links, a.Knows l

theorem Suited.mono (kept : ∀ {address : Address}, a.pages.has address = true →
    b.pages.has address = true) (suited : a.Suited p) : b.Suited p :=
  ⟨suited.forwards, fun l member => (suited.known l member).mono kept⟩

theorem modulePage_suited (bundle language module : String) :
    a.Suited (AtlasBuild.modulePage bundle language module) where
  forwards := ⟨fun kind => (nomatch kind), fun content => (nomatch content)⟩
  known _ member := absurd member List.not_mem_nil

theorem symbolPage_suited (parent : Address) (component : String) {s : GatheredSymbol}
    (plain : s.Plain) : a.Suited (AtlasBuild.symbolPage parent component s) where
  forwards := ⟨fun kind => (nomatch kind), fun content => (nomatch content)⟩
  known := by
    simp only [AtlasBuild.symbolPage, Content.links, plain.unrelated, List.map_nil, List.append_nil]
    exact fun l member => knows_of_written (plain.written l member)

theorem documentPage_suited (root : Address) {d : Document} {content : Content}
    (parsed : d.parse = .ok (.page content)) :
    a.Suited (AtlasBuild.documentPage root d content) where
  forwards := by
    simp only [AtlasBuild.documentPage]
    cases content <;> simp [AtlasBuild.documentKind, Content.isRedirect]
  known l member := knows_of_written ((Document.page_of_ofBlocks parsed).1 l member)

theorem Suited.edit (suited : a.Suited p) {f : Content → Content} (edit : SymbolEdit f)
    (known : ∀ content : Content, (∀ l ∈ content.links, a.Knows l) →
      ∀ l ∈ (f content).links, a.Knows l) :
    a.Suited { p with content := f p.content } where
  forwards := suited.forwards.trans (by rw [edit.isRedirect])
  known := known p.content suited.known

theorem addRelation_known {relation : Relation} (added : a.Knows relation.target)
    (content : Content) (own : ∀ l ∈ content.links, a.Knows l) :
    ∀ l ∈ (AtlasBuild.addRelation relation content).links, a.Knows l := by
  cases content with
  | symbol s =>
      simp only [AtlasBuild.addRelation, Content.links, List.map_append,
        List.forall_mem_append] at own ⊢
      exact ⟨own.1, own.2, by simpa using added⟩
  | article | redirect | tutorial => exact own

theorem addDocs_known {docs : Markup} (added : docs.Written) (content : Content)
    (own : ∀ l ∈ content.links, a.Knows l) :
    ∀ l ∈ (AtlasBuild.addDocs docs content).links, a.Knows l := by
  cases content with
  | symbol s =>
      simp only [AtlasBuild.addDocs, Content.links, List.forall_mem_append] at own ⊢
      refine ⟨fun l member => ?_, own.2⟩
      rcases Markup.mem_links_extend member with old | new
      · exact own.1 l old
      · exact knows_of_written (added l new)
  | article | redirect | tutorial => exact own

theorem Step.suited (step : Step a b)
    (suited : ∀ {address : Address} {page : Page}, a.pages.get? address = some page → a.Suited page)
    {address : Address} {page : Page} (found : b.pages.get? address = some page) :
    b.Suited page := by
  have before {page : Page} (suited : a.Suited page) : b.Suited page := suited.mono step.has
  cases step with
  | module _ inserted =>
      rcases (get?_insert?_iff inserted).mp found with ⟨_, rfl⟩ | present
      · exact modulePage_suited _ _ _
      · exact before (suited present)
  | symbol _ _ plain inserted =>
      rcases (get?_insert?_iff inserted).mp found with ⟨_, rfl⟩ | present
      · exact symbolPage_suited _ _ plain
      · exact before (suited present)
  | document parsed _ inserted =>
      rcases (get?_insert?_iff inserted).mp found with ⟨_, rfl⟩ | present
      · exact documentPage_suited _ parsed
      · exact before (suited present)
  | relate known =>
      obtain ⟨old, present, rfl | rfl⟩ := page_editContent found
      · exact before (suited present)
      · exact before ((suited present).edit (addRelation_symbolEdit _) (addRelation_known known))
  | extend read =>
      obtain ⟨old, present, rfl | rfl⟩ := page_editContent found
      · exact before (suited present)
      · exact before ((suited present).edit (addDocs_symbolEdit _) (addDocs_known read))

theorem Steps.suited (steps : Steps a b)
    (suited : ∀ {address : Address} {page : Page}, a.pages.get? address = some page → a.Suited page)
    {address : Address} {page : Page} (found : b.pages.get? address = some page) :
    b.Suited page := by
  induction steps generalizing address page with
  | refl => exact suited found
  | tail _ step ih => exact step.suited ih found

theorem Made.suited (made : a.Made) {address : Address} {page : Page}
    (found : a.pages.get? address = some page) : a.Suited page := by
  cases made with
  | empty => cases found
  | built settings inputs =>
      exact (build_steps settings inputs).suited (fun none => by cases none) found

end Concordance.Atlas
