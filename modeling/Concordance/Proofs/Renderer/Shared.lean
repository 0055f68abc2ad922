import Mathlib
import Concordance.Proofs.Assoc
import Concordance.Proofs.Renderer.Parallel

/-! # Rendering with a shared store

A page that is rendered with references in the store is rendered as with an empty store
if every reference it comes across there is the one it would make. The store then holds
what it held and what the page makes.
-/

namespace Concordance

open Rendered (References Reference)

namespace Rendered.References

variable {s : References} {identifier : String} {reference : Option Reference}

theorem getOrInsert_fst (own : ∀ made, reference = some made → made.identifier = identifier) :
    (s.getOrInsert identifier reference).1 = (s.get? identifier).or reference := by
  cases stored : s.get? identifier with
  | some found => simp [getOrInsert, stored]
  | none =>
      cases reference with
      | none => simp [getOrInsert, stored]
      | some made => simp [getOrInsert, insert, stored, own made rfl]

theorem get?_getOrInsert (own : ∀ made, reference = some made → made.identifier = identifier)
    (id : String) : (s.getOrInsert identifier reference).2.get? id =
      if id = identifier then (s.get? identifier).or reference else s.get? id := by
  cases stored : s.get? identifier with
  | some found =>
      simp only [getOrInsert, stored, Option.some_or]
      split
      · rename_i same
        rw [same, stored]
      · rfl
  | none =>
      cases reference with
      | none =>
          simp only [getOrInsert, stored, Option.none_or]
          split
          · rename_i same
            rw [same, stored]
          · rfl
      | some made =>
          simp only [getOrInsert, insert, stored, own made rfl, Option.none_or, Assoc.get?_put]
          simp

theorem rising_getOrInsert (rising : Assoc.Rising s) :
    Assoc.Rising (s.getOrInsert identifier reference).2 := by
  rw [getOrInsert.eq_def]
  split
  · exact rising
  · simp only [insert]
    split
    · exact rising
    · exact rising.put _ _
  · exact rising

end Rendered.References

namespace Renderer

variable {r r' : Renderer} {base store : References} {T : Address → Prop} {page : Page}
  {content : Content}

theorem topic?_identifier {address : Address} {reference : Reference}
    (made : r.topic? address = some reference) : reference.identifier = address.identifier := by
  simp only [topic?] at made
  split at made <;> obtain ⟨_, _, rfl⟩ := Option.map_eq_some_iff.mp made <;> rfl

theorem use_run (reference : Reference) (d : Draft) :
    (use reference).run d =
      (reference.identifier, { d with used := d.used.putNew reference.identifier reference }) := rfl

theorem target_run (r : Renderer) (address : Address) (text : String) (d : Draft) :
    (r.target address text).run d =
      let found := (d.store.get? address.identifier).or (r.topic? address)
      let shown := found.getD (.unresolved address.identifier text)
      ((shown.identifier, found.isSome), {
        store := (d.store.getOrInsert address.identifier (r.topic? address)).2
        used := d.used.putNew shown.identifier shown }) := by
  rw [← References.getOrInsert_fst fun _ => topic?_identifier]
  rw [target]
  simp only [StateT.run_bind, StateT.run_get, StateT.run_set, pure_bind]
  split <;> rename_i found <;> simp only [found] <;> rfl

/-- What is stored are references to addresses of a kind, as they are shown. -/
structure Faithful (r : Renderer) (T : Address → Prop) (store : References) : Prop where
  rising : Assoc.Rising store
  shown : ∀ {id : String} {reference : Reference}, store.get? id = some reference →
    ∃ address, T address ∧ address.identifier = id ∧ r.topic? address = some reference

theorem Faithful.empty : r.Faithful T [] where
  rising := List.Pairwise.nil
  shown found := by cases found

theorem faithful_parallel (r : Renderer) (T : Address → Prop) :
    Parallel (fun d d' => d = d' ∧ r.Faithful T d.store) T r r where
  atlas := rfl
  language := rfl
  web _ _ _ := keeps_iff_alike.mp fun d faithful => faithful
  dead _ _ := keeps_iff_alike.mp fun d faithful => faithful
  target address text inside := keeps_iff_alike.mp fun d faithful => by
    rw [target_run]
    refine ⟨References.rising_getOrInsert faithful.rising, fun {id reference} found => ?_⟩
    rw [References.get?_getOrInsert fun _ => topic?_identifier] at found
    split at found
    · rename_i same
      rcases Option.or_eq_some_iff.mp found with stored | ⟨_, made⟩
      · exact same ▸ faithful.shown stored
      · exact ⟨address, inside, same.symm, made⟩
    · exact faithful.shown found

theorem Faithful.render (faithful : r.Faithful T store)
    (above : ∀ p ∈ r.ancestors page, T p.address)
    (below : ∀ p ∈ r.uncurated page [], T p.address) (within : LeadWithin T content.links) :
    r.Faithful T (r.render page content store).2 :=
  keeps_iff_alike.mpr ((faithful_parallel r T).whole above below within) { store } faithful

/-- A page in the making with an empty store, and the same page with references in the store. -/
structure Beside (base : References) (d d' : Draft) : Prop where
  used : d'.used = d.used
  store : ∀ id, d'.store.get? id = (d.store.get? id).or (base.get? id)

theorem beside_use (reference : Reference) :
    Alike (Beside base) (use reference) (use reference) := by
  intro d d' beside
  rw [use_run, use_run]
  exact ⟨rfl, by rw [beside.used], beside.store⟩

theorem beside_parallel (atlas : r'.atlas = r.atlas) (language : r'.language = r.language)
    (same : ∀ address, T address → r'.topic? address = r.topic? address)
    (stored : ∀ address, T address → ∀ reference, base.get? address.identifier = some reference →
      r.topic? address = some reference) :
    Parallel (Beside base) T r r' where
  atlas := atlas
  language := language
  web _ _ _ := beside_use _
  dead _ _ := beside_use _
  target address text inside := fun d d' beside => by
    -- What the base has under the identifier is what would be made.
    have found : (d'.store.get? address.identifier).or (r'.topic? address) =
          (d.store.get? address.identifier).or (r.topic? address) ∧
        (d.store.get? address.identifier).or (r.topic? address) =
          ((d.store.get? address.identifier).or (r.topic? address)).or
            (base.get? address.identifier) := by
      rw [beside.store, same address inside]
      cases d.store.get? address.identifier with
      | some reference => simp
      | none =>
          cases old : base.get? address.identifier with
          | none => simp
          | some reference => simp [stored address inside reference old]
    rw [target_run, target_run, found.1]
    refine ⟨rfl, by rw [beside.used], fun id => ?_⟩
    rw [References.get?_getOrInsert fun _ => topic?_identifier,
      References.get?_getOrInsert fun _ => topic?_identifier, found.1]
    split
    · rename_i here
      rw [here]
      exact found.2
    · exact beside.store id

/-- A page is rendered as with an empty store, and what that stores is laid over the base. -/
theorem render_beside (atlas : r'.atlas = r.atlas) (language : r'.language = r.language)
    (same : ∀ address, T address → r'.topic? address = r.topic? address)
    (stored : ∀ address, T address → ∀ reference, base.get? address.identifier = some reference →
      r.topic? address = some reference)
    (above : ∀ p ∈ r.ancestors page, T p.address)
    (below : ∀ p ∈ r.uncurated page [], T p.address) (within : LeadWithin T content.links) :
    (r'.render page content base).1 = (r.render page content []).1 ∧
      ∀ id, (r'.render page content base).2.get? id =
        ((r.render page content []).2.get? id).or (base.get? id) := by
  obtain ⟨value, beside⟩ :=
    (beside_parallel atlas language same stored).whole above below within
      { store := [] } { store := base } ⟨rfl, fun id => rfl⟩
  refine ⟨?_, beside.store⟩
  change ({ ((r'.page page content).run { store := base }).1 with
      references := ((r'.page page content).run { store := base }).2.used } : Rendered.Page) =
    { ((r.page page content).run { store := [] }).1 with
      references := ((r.page page content).run { store := [] }).2.used }
  rw [← value, beside.used]

end Renderer

end Concordance
