import Mathlib
import Concordance.Proofs.Lockstep
import Concordance.Proofs.Renderer.Curation
import Concordance.Renderer.Basic

/-! # Rendering side by side

A page is rendered by using references and looking up addresses: those that its links
are resolved to, those of the pages that hold it, and those of the pages below it. Two
renderers that are alike in these steps are alike for the page.
-/

namespace Concordance

namespace Renderer

variable {R : Draft → Draft → Prop} {T : Address → Prop} {r r' : Renderer} {page : Page}

theorem mem_uncurated {listed : List String} {p : Page} (member : p ∈ r.uncurated page listed) :
    p ∈ r.uncurated page [] := by
  obtain ⟨below, shown⟩ := List.mem_filter.mp member
  exact List.mem_filter.mpr ⟨below, by simpa using (Bool.and_eq_true_iff.mp shown).1⟩

/-- Links that, where they are resolved, are resolved to addresses of a kind. -/
def LeadWithin (T : Address → Prop) (links : List Link) : Prop :=
  ∀ l ∈ links, ∀ address, l.destination = .resolved address → T address

theorem LeadWithin.mono {links others : List Link} (within : LeadWithin T links)
    (fewer : ∀ l ∈ others, l ∈ links) : LeadWithin T others :=
  fun l member => within l (fewer l member)

theorem LeadWithin.targets {links : List Link} (within : LeadWithin T links)
    {target : Address × String} (member : target ∈ targets links) : T target.1 := by
  obtain ⟨l, listed, found⟩ := List.mem_filterMap.mp member
  split at found
  · rename_i resolved
    cases found
    exact within l listed _ resolved
  · cases found

/-- Two renderers of one atlas that are alike in using references, and in looking up addresses of
a kind. -/
structure Parallel (R : Draft → Draft → Prop) (T : Address → Prop) (r r' : Renderer) : Prop where
  atlas : r'.atlas = r.atlas
  language : r'.language = r.language
  web : ∀ identifier title url, Alike R (use (.link identifier title url))
    (use (.link identifier title url))
  dead : ∀ identifier title, Alike R (use (.unresolved identifier title))
    (use (.unresolved identifier title))
  target : ∀ address text, T address → Alike R (r.target address text) (r'.target address text)

namespace Parallel

variable (parallel : Parallel R T r r')
include parallel

theorem link {l : Link} (within : ∀ address, l.destination = .resolved address → T address) :
    Alike R (r.link l) (r'.link l) := by
  simp only [Renderer.link]
  split
  · rename_i address resolved
    exact parallel.target address _ (within address resolved)
  · exact (parallel.web _ _ _).bind fun _ => .pure _
  all_goals exact (parallel.dead _ _).bind fun _ => .pure _

theorem inline {i : Inline} (within : LeadWithin T i.links) : Alike R (r.inline i) (r'.inline i) := by
  cases i with
  | code | text => exact .pure _
  | link l =>
      exact (parallel.link (within l (List.mem_singleton_self l))).bind fun _ => .pure _

theorem inlines {xs : Inlines} (within : LeadWithin T xs.links) :
    Alike R (r.inlines xs) (r'.inlines xs) :=
  .mapM fun i member => parallel.inline (within.mono fun _ inside =>
    List.mem_flatMap.mpr ⟨i, member, inside⟩)

theorem items {xs : List Inlines} (within : LeadWithin T (xs.flatMap Inlines.links)) :
    Alike R (xs.mapM r.inlines) (xs.mapM r'.inlines) :=
  .mapM fun item member => parallel.inlines (within.mono fun _ inside =>
    List.mem_flatMap.mpr ⟨item, member, inside⟩)

theorem block {b : Block} (within : LeadWithin T b.links) : Alike R (r.block b) (r'.block b) := by
  cases b with
  | code | heading => exact .pure _
  | list ordered items => cases ordered <;> exact (parallel.items within).bind fun _ => .pure _
  | paragraph content => exact (parallel.inlines within).bind fun _ => .pure _

theorem blocks {bs : List Block} (within : LeadWithin T (bs.flatMap Block.links)) :
    Alike R (bs.mapM r.block) (bs.mapM r'.block) :=
  .mapM fun b member => parallel.block (within.mono fun _ inside =>
    List.mem_flatMap.mpr ⟨b, member, inside⟩)

theorem discussion {bs : List Block} (within : LeadWithin T (bs.flatMap Block.links)) :
    Alike R (r.discussion bs) (r'.discussion bs) := by
  simp only [Renderer.discussion]
  split
  · exact .pure _
  · exact (parallel.blocks within).bind fun _ => .pure _

theorem live {targets : List (Address × String)} (within : ∀ target ∈ targets, T target.1) :
    Alike R (r.live targets) (r'.live targets) :=
  Alike.bind (.mapM fun target member => parallel.target _ _ (within target member)) fun _ => .pure _

theorem group {g : LinkGroup} (within : LeadWithin T g.links) : Alike R (r.group g) (r'.group g) :=
  (parallel.live fun _ member => within.targets member).bind fun _ => .pure _

theorem groups {gs : List LinkGroup} (within : LeadWithin T (gs.flatMap LinkGroup.links)) :
    Alike R (r.groups gs) (r'.groups gs) :=
  Alike.bind (.mapM fun g member => parallel.group (within.mono fun _ inside =>
    List.mem_flatMap.mpr ⟨g, member, inside⟩)) fun _ => .pure _

theorem topics (below : ∀ p ∈ r.uncurated page [], T p.address) {authored : List LinkGroup}
    (within : LeadWithin T (authored.flatMap LinkGroup.links)) :
    Alike R (r.topics page authored) (r'.topics page authored) := by
  refine (parallel.groups within).bind fun written => ?_
  have same (listed : List String) : r'.uncurated page listed = r.uncurated page listed := by
    simp only [uncurated, parallel.atlas]
  simp only [same]
  refine Alike.bind (.mapM fun group member => ?_) fun _ => .pure _
  refine (parallel.live fun target listed => ?_).bind fun _ => .pure _
  obtain ⟨p, inside, rfl⟩ := List.mem_map.mp listed
  exact below p (mem_uncurated (Curation.mem_groups member inside))

theorem relations {rs : List Relation} (within : LeadWithin T (rs.map Relation.target)) :
    Alike R (r.relations rs) (r'.relations rs) := by
  refine Alike.bind (.mapM fun relation member => ?_) fun _ => .pure _
  exact (parallel.link (within _ (List.mem_map_of_mem member))).bind fun _ => .pure _

theorem hierarchy (above : ∀ p ∈ r.ancestors page, T p.address) :
    Alike R (r.hierarchy page) (r'.hierarchy page) := by
  have same : r'.ancestors page = r.ancestors page := by simp only [ancestors, parallel.atlas]
  simp only [Renderer.hierarchy, same]
  refine Alike.bind (.mapM fun p member => ?_) fun _ => .pure _
  exact (parallel.target _ _ (above p member)).bind fun _ => .pure _

theorem chapter {s : TutorialSection} (within : LeadWithin T s.links) :
    Alike R (r.chapter s) (r'.chapter s) := by
  refine (parallel.blocks (within.mono fun _ => List.mem_append_left _)).bind fun _ => ?_
  exact (parallel.items (within.mono fun _ => List.mem_append_right _)).bind fun _ => .pure _

theorem body (below : ∀ p ∈ r.uncurated page [], T p.address) (base : Rendered.Page)
    {content : Content} (within : LeadWithin T content.links) :
    Alike R (r.body page base content) (r'.body page base content) := by
  cases content with
  | redirect title target => exact .pure _
  | article title docs =>
      have part (links : List Link) (inside : ∀ l ∈ links, l ∈ docs.links) := within.mono inside
      simp only [Markup.links, List.mem_append] at part
      refine (parallel.discussion (part _ fun _ inside => .inl (.inl (.inr inside)))).bind fun _ => ?_
      refine (parallel.topics below (part _ fun _ inside => .inl (.inr inside))).bind fun _ => ?_
      exact (parallel.groups (part _ fun _ inside => .inr inside)).bind fun _ => .pure _
  | symbol s =>
      have part (links : List Link) (inside : ∀ l ∈ links, l ∈ s.docs.links) :=
        within.mono fun l member => List.mem_append_left _ (inside l member)
      simp only [Markup.links, List.mem_append] at part
      refine (parallel.discussion (part _ fun _ inside => .inl (.inl (.inr inside)))).bind fun _ => ?_
      refine (parallel.topics below (part _ fun _ inside => .inl (.inr inside))).bind fun _ => ?_
      refine (parallel.relations (within.mono fun _ => List.mem_append_right _)).bind fun _ => ?_
      exact (parallel.groups (part _ fun _ inside => .inr inside)).bind fun _ => .pure _
  | tutorial t =>
      refine Alike.bind (.mapM fun s member => ?_) fun _ => .pure _
      exact parallel.chapter (within.mono fun _ inside =>
        List.mem_append_right _ (List.mem_flatMap.mpr ⟨s, member, inside⟩))

theorem summary {content : Content} (within : LeadWithin T content.links) :
    Alike R (r.inlines content.summary) (r'.inlines content.summary) := by
  refine parallel.inlines (within.mono fun l inside => ?_)
  cases content with
  | redirect title target => cases inside
  | article title docs =>
      exact List.mem_append_left _ (List.mem_append_left _ (List.mem_append_left _ inside))
  | symbol s =>
      exact List.mem_append_left _
        (List.mem_append_left _ (List.mem_append_left _ (List.mem_append_left _ inside)))
  | tutorial t => exact List.mem_append_left _ inside

theorem whole (above : ∀ p ∈ r.ancestors page, T p.address)
    (below : ∀ p ∈ r.uncurated page [], T p.address) {content : Content}
    (within : LeadWithin T content.links) :
    Alike R (r.page page content) (r'.page page content) := by
  refine (parallel.summary within).bind fun _ => ?_
  refine (parallel.hierarchy above).bind fun _ => ?_
  simp only [parallel.language]
  exact parallel.body below _ within

end Parallel

end Renderer

end Concordance
