import Mathlib
import Concordance.Proofs.Atlas.Representation
import Concordance.Proofs.Link.Identifier
import Concordance.Proofs.Renderer.SelfContained

/-! # The pages listed below a page

Groups of the author come first, and what they leave out of the pages below follows by
roles. Pages below are there, so that none of them is lost where identifiers are looked
up, whatever was stored under them before. Their identifiers differ, so that each is
listed once.
-/

namespace Concordance

open Rendered (References)

def Curation.group (part : String × List Page) : Rendered.Group where
  generated := true
  identifiers := part.2.map fun p => p.address.identifier
  title := heading part.1

namespace Atlas

variable {a : Atlas} {above one other : Address}

theorem Indexed.children_nodup (ix : a.Indexed) (above : Address) : (a.children above).Nodup := by
  rw [children]
  cases found : a.below.get? above with
  | none => exact List.nodup_nil
  | some addresses => exact (List.nodup_flatMap.mp ix.below_nodup).1 _ (Assoc.mem_of_get? found)

theorem WellFormed.child_held (wf : a.WellFormed) (child : one ∈ a.children above) :
    a.pages.has one = true := by
  obtain ⟨page, found, _⟩ := (wf.below above one).mp child
  exact Option.isSome_of_eq_some found

theorem WellFormed.child_identifier (wf : a.WellFormed) (here : one ∈ a.children above)
    (there : other ∈ a.children above) (same : one.identifier = other.identifier) :
    one = other := by
  rw [← wf.address_path (wf.child_held here), ← wf.address_path (wf.child_held there),
    wf.child_path here, wf.child_path there] at same ⊢
  rw [Address.identifier_concat_inj same]

theorem WellFormed.below_addresses (wf : a.WellFormed) (above : Address) :
    ((a.children above).filterMap a.page?).map Page.address = a.children above :=
  map_address_pages wf _ fun _ child => wf.child_held child

theorem WellFormed.below_identifiers (wf : a.WellFormed) (ix : a.Indexed) (above : Address) :
    (((a.children above).filterMap a.page?).map fun p => p.address.identifier).Nodup := by
  have same : ((a.children above).filterMap a.page?).map (fun p => p.address.identifier) =
      (a.children above).map Address.identifier := by
    rw [← wf.below_addresses above, List.map_map, wf.below_addresses above]
    rfl
  rw [same]
  exact (ix.children_nodup above).map_on fun _ here _ there => wf.child_identifier here there

end Atlas

namespace Renderer

variable {r : Renderer} {page : Page} {content : Content} {store : References} {d : Draft}
  {address : Address}

/-- A page in the making, with a store of references that can be stored. -/
def Draft.Stocked (d : Draft) : Prop := ∀ entry ∈ d.store, Shown entry

theorem stocked_parallel (r : Renderer) :
    Parallel (fun d d' => d = d' ∧ d.Stocked) (fun _ => True) r r where
  atlas := rfl
  language := rfl
  web _ _ _ := keeps_iff_alike.mp fun _ stocked => stocked
  dead _ _ := keeps_iff_alike.mp fun _ stocked => stocked
  target address _ _ := keeps_iff_alike.mp fun _ stocked => by
    rw [target_run]
    exact shown_getOrInsert stocked address

/-- An address with something to show is used under its identifier, whatever is stored there. -/
theorem target_known (stocked : d.Stocked) (known : (r.topic? address).isSome = true)
    (text : String) : ((r.target address text).run d).1 = (address.identifier, true) := by
  rw [target_run]
  cases found : (d.store.get? address.identifier).or (r.topic? address) with
  | some reference =>
      have own : reference.identifier = address.identifier := by
        rcases Option.or_eq_some_iff.mp found with stored | ⟨_, topic⟩
        · exact (stocked _ (Assoc.mem_of_get? stored)).own
        · exact topic?_identifier topic
      simp [own]
  | none =>
      rw [(Option.or_eq_none_iff.mp found).2] at known
      cases known

theorem live_known (targets : List (Address × String)) (stocked : d.Stocked)
    (known : ∀ target ∈ targets, (r.topic? target.1).isSome = true) :
    ((r.live targets).run d).1 = targets.map fun target => target.1.identifier := by
  let look (target : Address × String) : Step (String × Bool) := r.target target.1 target.2
  have found : ((targets.mapM look).run d).1 =
      targets.map fun target => (target.1.identifier, true) :=
    Keeps.mapM_eq (fun target _ => keeps_iff_alike.mpr ((stocked_parallel r).target _ _ trivial))
      (fun target member d stocked => target_known stocked (known target member) _) stocked
  have kept : ((r.live targets).run d).1 =
      (((targets.mapM look).run d).1.filter Prod.snd).map Prod.fst := rfl
  have all : (targets.map fun target => (target.1.identifier, true)).filter Prod.snd =
      targets.map fun target => (target.1.identifier, true) :=
    List.filter_eq_self.mpr (List.forall_mem_map.mpr fun _ _ => rfl)
  rw [kept, found, all, List.map_map]
  rfl

theorem generated_known {pages : List Page} (stocked : d.Stocked)
    (known : ∀ p ∈ pages, (r.topic? p.address).isSome = true) :
    (((Curation.groups pages).mapM fun (title, members) => r.generatedGroup title members).run d).1
      = (Curation.parts pages).map Curation.group := by
  let made (listed : String × List Page) : Rendered.Group :=
    { generated := true, identifiers := listed.2.map fun p => p.address.identifier
      title := listed.1 }
  have all : (((Curation.groups pages).mapM fun (title, members) =>
      r.generatedGroup title members).run d).1 = (Curation.groups pages).map made := by
    refine Keeps.mapM_eq (fun listed _ => ?_) (fun listed member d stocked => ?_) stocked
    · exact keeps_iff_alike.mpr
        (((stocked_parallel r).live fun _ _ => trivial).bind fun _ => .pure _)
    · have there (target : Address × String)
          (inside : target ∈ listed.2.map fun p => (p.address, p.title)) :
          (r.topic? target.1).isSome = true := by
        obtain ⟨p, within, rfl⟩ := List.mem_map.mp inside
        exact known p (Curation.mem_groups member within)
      have group : ((r.generatedGroup listed.1 listed.2).run d).1 =
          { generated := true, title := listed.1,
            identifiers := ((r.live (listed.2.map fun p => (p.address, p.title))).run d).1 } := rfl
      rw [group, live_known _ stocked there, List.map_map]
      rfl
  rw [all, Curation.groups_eq, List.map_map]
  rfl

theorem groups_written (r : Renderer) (gs : List LinkGroup) (d : Draft) :
    ∀ g ∈ ((r.groups gs).run d).1, g.generated = false := by
  intro g member
  have results : ∀ g ∈ ((gs.mapM r.group).run d).1, g.generated = false :=
    Keeps.mapM_results (I := fun _ => True)
      (Q := fun (g : Rendered.Group) (_ : Draft) => g.generated = false)
      (fun _ _ _ _ => trivial) (fun _ _ _ _ => rfl) (fun _ _ _ _ here => here) trivial
  exact results g (List.mem_filter.mp member).1

theorem topics_parts (r : Renderer) (page : Page) (stocked : d.Stocked) (authored : List LinkGroup)
    (known : ∀ p ∈ r.uncurated page [], (r.topic? p.address).isSome = true) :
    ∃ written, (∀ g ∈ written, g.generated = false) ∧
      ((r.topics page authored).run d).1 = written ++
        (Curation.parts
          (r.uncurated page (written.flatMap Rendered.Group.identifiers))).map Curation.group := by
  have next : ((r.groups authored).run d).2.Stocked :=
    keeps_iff_alike.mpr ((stocked_parallel r).groups fun _ _ _ _ => trivial) d stocked
  refine ⟨_, groups_written r authored d, ?_⟩
  rw [← generated_known next fun p member => known p (mem_uncurated member)]
  rfl

theorem render_topics (r : Renderer) (page : Page) (stored : ∀ entry ∈ store, Shown entry)
    (stays : content.isRedirect = false) (reads : content.isTutorial = false) :
    ∃ authored, ∃ d : Draft, d.Stocked ∧
      (r.render page content store).1.topics = ((r.topics page authored).run d).1 := by
  have prose (blocks : List Block) : Draft.Stocked ((r.discussion blocks).run
      ((r.hierarchy page).run ((r.inlines content.summary).run { store }).2).2).2 := by
    refine keeps_iff_alike.mpr ((stocked_parallel r).discussion fun _ _ _ _ => trivial) _ ?_
    refine keeps_iff_alike.mpr ((stocked_parallel r).hierarchy fun _ _ => trivial) _ ?_
    exact keeps_iff_alike.mpr ((stocked_parallel r).inlines fun _ _ _ _ => trivial) _ stored
  cases content with
  | article title docs => exact ⟨docs.topics, _, prose docs.discussion, rfl⟩
  | redirect => cases stays
  | symbol own => exact ⟨own.docs.topics, _, prose own.docs.discussion, rfl⟩
  | tutorial => cases reads

theorem topic?_below (wf : r.atlas.WellFormed) {above : Address} {p : Page}
    (below : p ∈ (r.atlas.children above).filterMap r.atlas.page?) :
    (r.topic? p.address).isSome = true := by
  have child : p.address ∈ r.atlas.children above := by
    rw [← wf.below_addresses above]
    exact List.mem_map_of_mem below
  have held := wf.child_held child
  obtain ⟨page, found⟩ := Option.isSome_iff_exists.mp held
  have bundle : p.address.bundle = r.atlas.bundle := by
    rw [← wf.address_path held]
    rfl
  have here : r.atlas.page? p.address = some page := by rw [Atlas.page?, wf.page_self found, found]
  simp [topic?, bundle, here]

section Listed

variable {written : List Rendered.Group} {parts : List (String × List Page)} {left : List Page}

theorem filter_authored (plain : ∀ g ∈ written, g.generated = false)
    (parts : List (String × List Page)) :
    (written ++ parts.map Curation.group).filter (fun g => !g.generated) = written := by
  have marked : ∀ g ∈ parts.map Curation.group, ¬ (!g.generated) = true :=
    List.forall_mem_map.mpr fun _ _ => Bool.false_ne_true
  rw [List.filter_append, List.filter_eq_nil_iff.mpr marked, List.append_nil]
  exact List.filter_eq_self.mpr fun g member => by rw [plain g member]; rfl

theorem filter_generated (plain : ∀ g ∈ written, g.generated = false)
    (parts : List (String × List Page)) :
    (written ++ parts.map Curation.group).filter (fun g => g.generated) =
      parts.map Curation.group := by
  have none : written.filter (fun g => g.generated) = [] :=
    List.filter_eq_nil_iff.mpr fun g member => by simp [plain g member]
  rw [List.filter_append, none, List.nil_append]
  exact List.filter_eq_self.mpr (List.forall_mem_map.mpr fun _ _ => rfl)

theorem count_listed (part : Curation.Parts left parts)
    (once : (left.map fun p => p.address.identifier).Nodup) {p : Page} (member : p ∈ left) :
    ((parts.map Curation.group).flatMap Rendered.Group.identifiers).count p.address.identifier
      = 1 := by
  have all := part.perm.map fun p => p.address.identifier
  rw [List.map_flatMap] at all
  rw [List.flatMap_map]
  exact (all.count_eq _).trans (List.count_eq_one_of_mem once (List.mem_map_of_mem member))

end Listed

/-- The pages below a page of a built atlas that are shown, and that no group of the author lists,
are listed once each in the groups that follow, by their roles, whatever links the author wrote and
whatever was rendered before. Nothing else is listed there. -/
theorem render_curated (settings : Settings) (inputs : Inputs) (externals : Informants)
    (language : String) (page : Page) (content : Content) (stays : content.isRedirect = false)
    (reads : content.isTutorial = false) {store : References} (reached : Reached store) :
    let r : Renderer := { atlas := (Atlas.build settings inputs).1, externals, language }
    let topics := (r.render page content store).1.topics
    let authored := topics.filter fun g => !g.generated
    let generated := topics.filter fun g => g.generated
    let left := ((r.atlas.children page.address).filterMap r.atlas.page?).filter fun p =>
      p.kind ≠ .redirect ∧ p.address.identifier ∉ authored.flatMap Rendered.Group.identifiers
    topics = authored ++ generated ∧
      (∀ p ∈ left,
        (generated.flatMap Rendered.Group.identifiers).count p.address.identifier = 1) ∧
      ∃ parts, Curation.Parts left parts ∧ generated = parts.map Curation.group := by
  intro r topics authored generated left
  have wf : r.atlas.WellFormed := Atlas.build_wellFormed settings inputs
  have ix : r.atlas.Indexed := Atlas.build_indexed settings inputs
  obtain ⟨links, d, stocked, made⟩ := render_topics r page reached.shown stays reads
  obtain ⟨written, plain, whole⟩ := topics_parts r page stocked links fun p member =>
    topic?_below wf (List.mem_filter.mp member).1
  let parts := Curation.parts (r.uncurated page (written.flatMap Rendered.Group.identifiers))
  have shown : topics = written ++ parts.map Curation.group := made.trans whole
  have first : authored = written :=
    (congrArg (List.filter _) shown).trans (filter_authored plain parts)
  have second : generated = parts.map Curation.group :=
    (congrArg (List.filter _) shown).trans (filter_generated plain parts)
  have same : r.uncurated page (written.flatMap Rendered.Group.identifiers) = left := by
    refine List.filter_congr fun p _ => ?_
    rw [first, Bool.eq_iff_iff]
    simp
  have below : left.Sublist ((r.atlas.children page.address).filterMap r.atlas.page?) :=
    List.filter_sublist
  have identifiers : (left.map fun p => p.address.identifier).Nodup :=
    (wf.below_identifiers ix page.address).sublist (below.map _)
  have addresses : (left.map Page.address).Nodup :=
    .of_map Address.identifier (by rwa [List.map_map])
  have part : Curation.Parts left parts := same ▸ Curation.parts_part (same.symm ▸ addresses)
  refine ⟨by rw [first, second, shown], fun p member => ?_, parts, part, second⟩
  rw [second]
  exact count_listed part identifiers member

theorem render_curated_class :
    let inputs : Inputs := {
      symbolGraphs := [⟨"Kit.symbols.json", {
        module := "Kit"
        symbols := [{
          language := "swift", precise := "s:A", kindName := "Class"
          kindIdentifier := "swift.class", title := "A", path := ["A"] }] }⟩] }
    let r : Renderer := { atlas := (Atlas.build {} inputs).1, externals := [], language := "swift" }
    let page := AtlasBuild.modulePage "com.example.documentation" "swift" "Kit"
    let content : Content := .symbol { SymbolContent.ofModule "swift" "Kit" with
      docs := { topics := [⟨"Chosen", [{ destination := .resolved page.address }]⟩] } }
    let store := (r.render page content []).2
    let topics := (r.render page content store).1.topics
    let authored := topics.filter fun g => !g.generated
    let generated := topics.filter fun g => g.generated
    let left := ((r.atlas.children page.address).filterMap r.atlas.page?).filter fun p =>
      p.kind ≠ .redirect ∧ p.address.identifier ∉ authored.flatMap Rendered.Group.identifiers
    (topics.map fun g => (g.title, g.identifiers)) =
        [("Chosen", ["doc://com.example.documentation/documentation/Kit"]),
          ("Classes", ["doc://com.example.documentation/documentation/Kit/A"])] ∧
      topics = authored ++ generated ∧
      (∀ p ∈ left,
        (generated.flatMap Rendered.Group.identifiers).count p.address.identifier = 1) ∧
      ∃ parts, Curation.Parts left parts ∧ generated = parts.map Curation.group := by
  intro inputs r page content store topics authored generated left
  have shown : (topics.map fun g => (g.title, g.identifiers)) =
      [("Chosen", ["doc://com.example.documentation/documentation/Kit"]),
        ("Classes", ["doc://com.example.documentation/documentation/Kit/A"])] := by
    decide +kernel
  have reached : Reached store := .render r page content .empty
  exact ⟨shown, render_curated {} inputs [] "swift" page content rfl rfl reached⟩

end Renderer

end Concordance
