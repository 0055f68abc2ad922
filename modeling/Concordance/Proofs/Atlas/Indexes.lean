import Mathlib
import Concordance.Proofs.Atlas.Distinguished
import Concordance.Proofs.Atlas.Steps

/-! # The indexes of an atlas

Every page stands once among those of its human path, and once below the page that
holds it or once among the roots. Every symbol is found by its unique identifier, the
relations of symbols lead to pages that are there, and no human path is without a page.
Each step of building keeps this.
-/

namespace Concordance.Atlas

variable {a b : Atlas} {p : Page}

/-- Atlases whose indexes list every page once. -/
structure Indexed (a : Atlas) : Prop where
  named_rising : Assoc.Rising a.byHumanPath
  named_nodup : (a.byHumanPath.flatMap Prod.snd).Nodup
  named : ∀ {address : Address} {page : Page}, a.pages.get? address = some page →
    address ∈ (a.byHumanPath.get? page.humanText).getD []
  below_rising : Assoc.Rising a.below
  below_nodup : (a.below.flatMap Prod.snd).Nodup
  /-- Pages stand below pages that are there. -/
  above : ∀ {address : Address} {addresses : List Address}, (address, addresses) ∈ a.below →
    a.pages.has address = true
  roots_nodup : a.roots.Nodup
  precise_rising : Assoc.Rising a.byPrecise
  /-- A unique identifier stands for a page that shows its symbol. -/
  precise : ∀ {precise : String} {address : Address}, a.byPrecise.get? precise = some address →
    ∃ page, a.pages.get? address = some page ∧ page.precise? = some precise
  /-- The symbol of a symbol's page is found. -/
  symbols : ∀ {address : Address} {page : Page}, a.pages.get? address = some page →
    page.kind = .symbol →
    ∃ precise, page.precise? = some precise ∧ a.byPrecise.get? precise = some address
  /-- Relations lead to pages that are there. -/
  related : ∀ {address : Address} {page : Page} {content : SymbolContent} {target : Address},
    a.pages.get? address = some page → page.content = .symbol content →
    (∃ relation ∈ content.relations, relation.target.destination = .resolved target) →
    a.pages.has target = true

theorem Indexed.empty (bundle : String) : Indexed { bundle } where
  named_rising := List.Pairwise.nil
  named_nodup := List.nodup_nil
  named found := by cases found
  below_rising := List.Pairwise.nil
  below_nodup := List.nodup_nil
  above member := by cases member
  roots_nodup := List.nodup_nil
  precise_rising := List.Pairwise.nil
  precise found := by cases found
  symbols found := by cases found
  related found := by cases found

theorem append_nodup {κ : Type} [BEq κ] [LawfulBEq κ] [Ord κ] [Std.TransOrd κ] [Std.LawfulEqOrd κ]
    {m : Assoc κ (List Address)} (rising : Assoc.Rising m) (once : (m.flatMap Prod.snd).Nodup)
    (key : κ) {address : Address} (new : address ∉ m.flatMap Prod.snd) :
    ((append m key address).flatMap Prod.snd).Nodup :=
  (rising.flatMap_put_append key address).nodup_iff.mpr (List.nodup_cons.mpr ⟨new, once⟩)

theorem Indexed.precise_insert (ix : a.Indexed) (inserted : a.insert? p = some b) {precise : String}
    {address : Address} (found : b.byPrecise.get? precise = some address) :
    ∃ page, b.pages.get? address = some page ∧ page.precise? = some precise := by
  have before (known : a.byPrecise.get? precise = some address) :
      ∃ page, b.pages.get? address = some page ∧ page.precise? = some precise := by
    obtain ⟨page, there, same⟩ := ix.precise known
    exact ⟨page, (get?_insert?_iff inserted).mpr (.inr there), same⟩
  rw [byPrecise_insert? inserted] at found
  cases symbol : p.content.symbol? with
  | none =>
      rw [symbol] at found
      exact before found
  | some content =>
      rw [symbol, Assoc.get?_put] at found
      split at found
      · rename_i same
        cases found
        refine ⟨p, (get?_insert?_iff inserted).mpr (.inl ⟨rfl, rfl⟩), ?_⟩
        rw [Page.precise?, symbol, eq_of_beq same]
        rfl
      · exact before found

theorem Indexed.symbols_insert (ix : a.Indexed)
    (new : ∀ precise, p.precise? = some precise → ¬ a.Describes precise)
    (shows : p.kind = .symbol → p.precise?.isSome = true) (inserted : a.insert? p = some b)
    {address : Address} {page : Page} (found : b.pages.get? address = some page)
    (kind : page.kind = .symbol) :
    ∃ precise, page.precise? = some precise ∧ b.byPrecise.get? precise = some address := by
  rw [byPrecise_insert? inserted]
  rcases (get?_insert?_iff inserted).mp found with ⟨rfl, rfl⟩ | before
  · obtain ⟨precise, known⟩ := Option.isSome_iff_exists.mp (shows kind)
    refine ⟨precise, known, ?_⟩
    obtain ⟨content, symbol, rfl⟩ := Option.map_eq_some_iff.mp known
    simp only [symbol, Assoc.get?_put, beq_self_eq_true, if_true]
  · obtain ⟨precise, known, listed⟩ := ix.symbols before kind
    refine ⟨precise, known, ?_⟩
    cases symbol : p.content.symbol? with
    | none => exact listed
    | some content =>
        have different : precise ≠ content.precise := by
          intro same
          refine new content.precise (by simp [Page.precise?, symbol]) ?_
          exact ⟨address, page, before, kind, same ▸ known⟩
        simp only [Assoc.get?_put, beq_iff_eq, different, if_false, listed]

/-- Inserting a page keeps the indexes, unless it hides a symbol that has its page. -/
theorem Indexed.insert (ix : a.Indexed) (wf : a.WellFormed) (wf' : b.WellFormed)
    (new : ∀ precise, p.precise? = some precise → ¬ a.Describes precise)
    (shows : p.kind = .symbol → p.precise?.isSome = true)
    (unrelated : ∀ content, p.content = .symbol content → content.relations = [])
    (inserted : a.insert? p = some b) : b.Indexed where
  named_rising := by
    rw [byHumanPath_insert? inserted]
    exact ix.named_rising.put _ _
  named_nodup := by
    rw [byHumanPath_insert? inserted]
    refine append_nodup ix.named_rising ix.named_nodup _ fun member => ?_
    obtain ⟨text, listed⟩ := ix.named_rising.mem_flatMap_iff.mp member
    exact Bool.eq_false_iff.mp (insert?_fresh inserted) (wf.named listed)
  named found := by
    rw [mem_named_insert? inserted]
    rcases (get?_insert?_iff inserted).mp found with ⟨here, same⟩ | before
    · exact .inr ⟨here, same ▸ rfl⟩
    · exact .inl (ix.named before)
  below_rising := by
    rw [below_insert? inserted]
    split
    · exact ix.below_rising.put _ _
    · exact ix.below_rising
  below_nodup := by
    rw [below_insert? inserted]
    split
    · refine append_nodup ix.below_rising ix.below_nodup _ fun member => ?_
      obtain ⟨above, listed⟩ := ix.below_rising.mem_flatMap_iff.mp member
      obtain ⟨page, found, _⟩ := (wf.below above _).mp listed
      exact Bool.eq_false_iff.mp (insert?_fresh inserted) (Option.isSome_of_eq_some found)
    · exact ix.below_nodup
  above member := by
    rw [below_insert? inserted] at member
    split at member
    · rename_i parent holder
      rcases Assoc.mem_put member with same | member
      · cases same
        exact wf'.held ((get?_insert?_iff inserted).mpr (.inl ⟨rfl, rfl⟩)) holder
      · exact has_insert? inserted (ix.above member)
    · exact has_insert? inserted (ix.above member)
  roots_nodup := by
    rw [roots_insert? inserted]
    split
    · exact ix.roots_nodup
    · refine List.nodup_append.mpr ⟨ix.roots_nodup, List.nodup_singleton _, ?_⟩
      intro root member address here same
      cases List.mem_singleton.mp here
      obtain ⟨page, found, _⟩ := (wf.roots root).mp member
      exact Bool.eq_false_iff.mp (insert?_fresh inserted) (same ▸ Option.isSome_of_eq_some found)
  precise_rising := by
    rw [byPrecise_insert? inserted]
    split
    · exact ix.precise_rising.put _ _
    · exact ix.precise_rising
  precise := ix.precise_insert inserted
  symbols := ix.symbols_insert new shows inserted
  related found symbol leads := by
    rcases (get?_insert?_iff inserted).mp found with ⟨_, same⟩ | before
    · obtain ⟨relation, member, _⟩ := leads
      rw [unrelated _ (same ▸ symbol)] at member
      cases member
    · exact has_insert? inserted (ix.related before symbol leads)

/-- Editing what pages hold keeps the indexes, if relations are only stated to pages there. -/
theorem Indexed.edit (ix : a.Indexed) {f : Content → Content} (precise : PreciseEdit f)
    (related : ∀ {content before : SymbolContent}, f (.symbol before) = .symbol content →
      ∀ relation ∈ content.relations, relation ∈ before.relations ∨
        ∀ target, relation.target.destination = .resolved target → a.pages.has target = true)
    (symbol : SymbolEdit f) (address : Address) : (a.editContent address f).Indexed where
  named_rising := ix.named_rising
  named_nodup := ix.named_nodup
  named found := by
    -- Editing leaves the human path, so the entry for the page from before is the one wanted.
    obtain ⟨before, present, rfl | rfl⟩ := page_editContent found
    · exact ix.named present
    · have listed := ix.named present
      exact listed
  below_rising := ix.below_rising
  below_nodup := ix.below_nodup
  above member := by
    rw [has_editContent]
    exact ix.above member
  roots_nodup := ix.roots_nodup
  precise_rising := ix.precise_rising
  precise {q k} found := by
    obtain ⟨page, present, same⟩ := ix.precise found
    rw [get?_editContent, present]
    refine ⟨_, rfl, ?_⟩
    split
    · exact (precise page.content).trans same
    · exact same
  symbols found kind := by
    obtain ⟨before, present, rfl | rfl⟩ := page_editContent found
    · exact ix.symbols present kind
    · obtain ⟨q, same, listed⟩ := ix.symbols present kind
      exact ⟨q, (precise before.content).trans same, listed⟩
  related {k page content target} found shown leads := by
    rw [has_editContent]
    obtain ⟨before, present, rfl | rfl⟩ := page_editContent found
    · exact ix.related present shown leads
    · obtain ⟨relation, member, resolved⟩ := leads
      rcases symbol before.content with ⟨s, t, was, now⟩ | same
      · rw [was] at shown
        rcases related shown relation member with old | known
        · exact ix.related present was ⟨relation, old, resolved⟩
        · exact known target resolved
      · exact ix.related present (same ▸ shown) ⟨relation, member, resolved⟩

theorem Step.indexed (step : Step a b) (wf : a.WellFormed) (ix : a.Indexed) : b.Indexed := by
  have wf' := step.wellFormed wf
  cases step with
  | module early inserted =>
      refine ix.insert wf wf' (fun q _ => early q) (fun kind => by cases kind)
        (fun content shown => ?_) inserted
      cases shown
      rfl
  | symbol _ new plain inserted =>
      refine ix.insert wf wf' (fun q same => ?_) (fun _ => rfl) (fun content shown => ?_) inserted
      · cases same
        exact new
      · cases shown
        exact plain.unrelated
  | @document _ home d content parsed held inserted =>
      have none : content.symbol? = none := (Document.page_of_ofBlocks parsed).2.1
      refine ix.insert wf wf' (fun q same => ?_) (fun kind => ?_) (fun s shown => ?_) inserted
      · simp [Page.precise?, AtlasBuild.documentPage, none] at same
      · have kinds : AtlasBuild.documentKind content = .symbol := kind
        cases content <;> simp_all [AtlasBuild.documentKind, Content.symbol?]
      · have shown : content = .symbol s := shown
        rw [shown] at none
        cases none
  | @relate address relation known =>
      refine ix.edit (addRelation_preciseEdit _) (fun same r member => ?_)
        (addRelation_symbolEdit _) address
      cases same
      rcases List.mem_append.mp member with old | new
      · exact .inl old
      · cases List.mem_singleton.mp new
        exact .inr known.held
  | @extend address docs read =>
      refine ix.edit (addDocs_preciseEdit _) (fun same r member => ?_) (addDocs_symbolEdit _) address
      cases same
      exact .inl member

theorem Steps.indexed (steps : Steps a b) (wf : a.WellFormed) (ix : a.Indexed) : b.Indexed := by
  induction steps with
  | refl => exact ix
  | tail earlier step ih => exact step.indexed (Steps.wellFormed earlier wf) ih

theorem build_indexed (settings : Settings) (inputs : Inputs) :
    (build settings inputs).1.Indexed :=
  (build_steps settings inputs).indexed (.empty _) (.empty _)

section Titled

variable {text : String}

/-- The texts of human paths are those of the pages. -/
def Titled (a : Atlas) : Prop :=
  ∀ text, text ∈ a.humanPaths ↔ ∃ address page, a.pages.get? address = some page ∧
    page.humanText = text

theorem mem_humanPaths_insert? (inserted : a.insert? p = some b) :
    text ∈ b.humanPaths ↔ text = p.humanText ∨ text ∈ a.humanPaths := by
  rw [humanPaths, humanPaths, ← Assoc.has_iff_mem_keys, ← Assoc.has_iff_mem_keys,
    byHumanPath_insert? inserted, append, Assoc.has_put, Bool.or_eq_true, beq_iff_eq]

theorem Titled.insert (titled : a.Titled) (inserted : a.insert? p = some b) : b.Titled := by
  intro text
  rw [mem_humanPaths_insert? inserted, titled text]
  simp only [get?_insert?_iff inserted, or_and_right, exists_or, and_assoc, exists_and_left,
    exists_eq_left]
  rw [eq_comm]

theorem Titled.edit (titled : a.Titled) (address : Address) (f : Content → Content) :
    (a.editContent address f).Titled := by
  intro text
  refine (titled text).trans (exists_congr fun k => ?_)
  rw [get?_editContent]
  cases a.pages.get? k with
  | none => simp
  | some page =>
      simp only [Option.map_some, Option.some.injEq, exists_eq_left']
      split <;> rfl

theorem Step.titled (step : Step a b) (titled : a.Titled) : b.Titled := by
  cases step with
  | module _ inserted => exact titled.insert inserted
  | symbol _ _ _ inserted => exact titled.insert inserted
  | document _ _ inserted => exact titled.insert inserted
  | relate => exact titled.edit _ _
  | extend => exact titled.edit _ _

theorem Steps.titled (steps : Steps a b) (titled : a.Titled) : b.Titled := by
  induction steps with
  | refl => exact titled
  | tail _ step ih => exact step.titled ih

theorem Made.titled (made : a.Made) : a.Titled := by
  have empty (bundle : String) : Titled { bundle } := fun text => by simp [humanPaths, Assoc.keys]
  cases made with
  | empty => exact empty _
  | built settings inputs => exact (build_steps settings inputs).titled (empty _)

theorem Made.mem_humanPaths (made : a.Made) :
    text ∈ a.humanPaths ↔ ∃ page ∈ a.pageList, page.humanText = text := by
  rw [made.titled text]
  constructor
  · rintro ⟨address, page, found, same⟩
    exact ⟨page, mem_pageList found, same⟩
  · rintro ⟨page, member, same⟩
    exact ⟨page.address, page, made.wellFormed.get?_address member, same⟩

end Titled

theorem dangling_eq_nil (wf : a.WellFormed) (ix : a.Indexed) : a.dangling = [] := by
  have checked (index : String) {address : Address} (held : a.pages.has address = true) :
      (if a.pages.has address then [] else [index ++ ": " ++ address.identifier]) = [] :=
    if_pos held
  simp only [dangling, List.append_eq_nil_iff, List.flatMap_eq_nil_iff]
  refine ⟨⟨⟨?_, ?_⟩, ?_⟩, ?_⟩
  · rintro ⟨text, addresses⟩ entry address member
    have listed : address ∈ (a.byHumanPath.get? text).getD [] := by
      rwa [ix.named_rising.get?_eq_some_iff.mpr entry]
    exact checked _ (wf.named listed)
  · rintro ⟨precise, address⟩ entry
    exact checked _ (wf.precise (ix.precise_rising.get?_eq_some_iff.mpr entry))
  · rintro ⟨above, addresses⟩ entry
    refine ⟨checked _ (ix.above entry), fun address member => checked _ ?_⟩
    have listed : address ∈ a.children above := by
      rwa [children, ix.below_rising.get?_eq_some_iff.mpr entry]
    obtain ⟨page, found, _⟩ := (wf.below above address).mp listed
    exact Option.isSome_of_eq_some found
  · intro root member
    obtain ⟨page, found, _⟩ := (wf.roots root).mp member
    exact checked _ (Option.isSome_of_eq_some found)

end Concordance.Atlas
