import Mathlib
import Concordance.Project
import Concordance.Proofs.Renderer.Mentions

/-! # The store and the pages

Whatever is stored stays, and whatever is stored while a page is rendered is used on that
page. So the store, once all pages are rendered, agrees with the references of each page,
although each page took what was stored when its turn came.
-/

namespace Concordance

open Rendered (References Reference)

namespace Rendered.References

/-- A store as it agrees with pages: it holds references to pages, each under its own identifier. A
reference to a page on any of the pages is the one that is stored, and whatever is stored is used on
some page. -/
structure Agrees (store : References) (pages : List Page) : Prop where
  topics : ∀ entry ∈ store, entry.2.lead = .page ∧ entry.2.identifier = entry.1
  copies : ∀ page ∈ pages, ∀ entry ∈ page.references, entry.2.lead = .page →
    store.get? entry.2.identifier = some entry.2
  used : ∀ id ∈ store.keys, ∃ page ∈ pages, id ∈ page.references.keys

/-- What is stored after pages, which use given references, were rendered with a base. -/
structure Follows (base : References) (uses : List References) (store : References) : Prop where
  shown : ∀ entry ∈ store, Renderer.Shown entry
  grown : ∀ {id reference}, base.get? id = some reference → store.get? id = some reference
  copies : ∀ used ∈ uses, ∀ entry ∈ used, entry.2.lead = .page →
    store.get? entry.2.identifier = some entry.2
  used : ∀ id, store.has id = true → base.has id = true ∨ ∃ used ∈ uses, used.has id = true

variable {base middle store later used : References} {uses : List References}

theorem Follows.refl (shown : ∀ entry ∈ base, Renderer.Shown entry) : Follows base [] base where
  shown := shown
  grown := id
  copies := List.forall_mem_nil _
  used _ := .inl

theorem Follows.cons (first : Follows base [used] middle) (rest : Follows middle uses store) :
    Follows base (used :: uses) store where
  shown := rest.shown
  grown found := rest.grown (first.grown found)
  copies := List.forall_mem_cons.mpr ⟨fun entry member lead =>
    rest.grown (first.copies used (List.mem_singleton_self _) entry member lead), rest.copies⟩
  used id there := by
    rw [List.exists_mem_cons_iff]
    rcases rest.used id there with before | later
    · exact (first.used id before).imp_right fun ⟨_, only, has⟩ =>
        .inl (List.mem_singleton.mp only ▸ has)
    · exact .inr (.inr later)

theorem Follows.agrees {pages : List Page} (follows : Follows [] (pages.map Page.references) store) :
    store.Agrees pages where
  topics entry member := ⟨(follows.shown entry member).lead, (follows.shown entry member).own⟩
  copies page listed := follows.copies _ (List.mem_map_of_mem listed)
  used id there := by
    rcases follows.used id (Assoc.has_iff_mem_keys.mpr there) with nothing | ⟨_, listed, has⟩
    · cases nothing
    · obtain ⟨page, inside, rfl⟩ := List.mem_map.mp listed
      exact ⟨page, inside, Assoc.has_iff_mem_keys.mp has⟩

theorem Follows.use (follows : Follows base [used] store) {reference : Reference}
    (kept : ∀ {id found}, store.get? id = some found → later.get? id = some found)
    (shown : ∀ entry ∈ later, Renderer.Shown entry)
    (only : ∀ id, later.has id = true → store.has id = true ∨ id = reference.identifier)
    (stored : reference.lead = .page → later.get? reference.identifier = some reference) :
    Follows base [used.putNew reference.identifier reference] later where
  shown := shown
  grown found := kept (follows.grown found)
  copies := by
    simp only [List.forall_mem_singleton]
    intro entry member lead
    rcases Assoc.mem_putNew member with rfl | before
    · exact stored lead
    · exact kept (follows.copies used (List.mem_singleton_self _) entry before lead)
  used id there := by
    simp only [List.mem_singleton, exists_eq_left, Assoc.has_putNew, Bool.or_eq_true, beq_iff_eq]
    rcases only id there with before | new
    · have old := follows.used id before
      simp only [List.mem_singleton, exists_eq_left] at old
      exact old.imp_right .inr
    · exact .inr (.inl new)

end Rendered.References

namespace Renderer

variable {r : Renderer} {base : References} {page : Page} {content : Content}

theorem follows_use {reference : Reference} (elsewhere : reference.lead ≠ .page) :
    Keeps (fun d => References.Follows base [d.used] d.store) (use reference) := fun _ follows =>
  follows.use id follows.shown (fun _ => .inl) fun lead => absurd lead elsewhere

theorem follows_target (address : Address) (text : String) :
    Keeps (fun d => References.Follows base [d.used] d.store) (r.target address text) := by
  intro d follows
  rw [target_run]
  generalize lookedUp : (d.store.get? address.identifier).or (r.topic? address) = found
  have stored (id : String) : (d.store.getOrInsert address.identifier (r.topic? address)).2.get? id =
      if id = address.identifier then found else d.store.get? id := by
    rw [References.get?_getOrInsert fun _ => topic?_identifier, lookedUp]
  have own : (found.getD (.unresolved address.identifier text)).identifier = address.identifier := by
    cases found with
    | none => rfl
    | some reference =>
        rcases Option.or_eq_some_iff.mp lookedUp with before | ⟨_, topic⟩
        · exact (follows.shown _ (Assoc.mem_of_get? before)).own
        · exact topic?_identifier topic
  refine follows.use ?_ ?_ ?_ ?_
  · intro id reference before
    rw [stored]
    split
    · rename_i here
      rw [← lookedUp, ← here, before, Option.some_or]
    · exact before
  · intro entry member
    rcases mem_getOrInsert member with old | ⟨made, topic, rfl⟩
    · exact follows.shown entry old
    · exact topic?_identifier topic ▸ topic?_shown topic
  · intro id there
    rw [Assoc.has, stored] at there
    split at there
    · rename_i here
      exact .inr (here.trans own.symm)
    · exact .inl there
  · intro lead
    rw [own, stored, if_pos rfl]
    cases found with
    | none => cases lead
    | some reference => rfl

theorem follows_parallel (r : Renderer) (base : References) :
    Parallel (fun d d' => d = d' ∧ References.Follows base [d.used] d.store) (fun _ => True) r r where
  atlas := rfl
  language := rfl
  web _ _ _ := keeps_iff_alike.mp (follows_use nofun)
  dead _ _ := keeps_iff_alike.mp (follows_use nofun)
  target address text _ := keeps_iff_alike.mp (follows_target address text)

theorem follows_render (r : Renderer) (page : Page) (content : Content)
    (shown : ∀ entry ∈ base, Shown entry) :
    References.Follows base [(r.render page content base).1.references]
      (r.render page content base).2 :=
  keeps_iff_alike.mpr
    ((follows_parallel r base).whole (fun _ _ => trivial) (fun _ _ => trivial)
      fun _ _ _ _ => trivial)
    { store := base } {
      shown, grown := id, used := fun _ => .inl
      copies := List.forall_mem_singleton.mpr (List.forall_mem_nil _) }

end Renderer

namespace Project

variable {p : Project} {shared : Shared}

/-- What is stored once pages are published, one after the other. The induction is on the pages. -/
theorem publishPages_follows (pages : List Page)
    (shown : ∀ entry ∈ shared.store, Renderer.Shown entry) :
    References.Follows shared.store
      ((p.publishPages pages shared).1.map fun result => result.page.rendered.references)
      (p.publishPages pages shared).2.store := by
  induction pages generalizing shared with
  | nil => exact .refl shown
  | cons page rest ih =>
      have first : References.Follows shared.store
          [(p.publishPage page shared).1.page.rendered.references]
          (p.publishPage page shared).2.store := Renderer.follows_render _ page _ shown
      exact first.cons (ih first.shown)

/-- However the pages are put in order, once all of them are published the store agrees with them:
what is stored are references to pages under their own identifiers, every reference to a page on any
of the pages is the one that is stored, and whatever is stored is used on some page. -/
theorem store_agrees (p : Project) (order : List Page) :
    (p.publishPages order {}).2.store.Agrees
        ((p.publishPages order {}).1.map fun result => result.page.rendered) ∧
      p.publish.references.Agrees (p.publish.pages.map PublishedPage.rendered) := by
  have agrees (pages : List Page) : (p.publishPages pages {}).2.store.Agrees
      ((p.publishPages pages {}).1.map fun result => result.page.rendered) := by
    have empty : ∀ entry ∈ ({} : Shared).store, Renderer.Shown entry := List.forall_mem_nil _
    refine References.Follows.agrees ?_
    rw [List.map_map]
    exact publishPages_follows pages empty
  have pages : p.publish.pages.map PublishedPage.rendered =
      (p.publishPages p.atlas.shown {}).1.map fun result => result.page.rendered := List.map_map
  exact ⟨agrees order, pages ▸ agrees p.atlas.shown⟩

end Project

end Concordance
