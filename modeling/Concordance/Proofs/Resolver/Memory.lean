import Mathlib
import Concordance.Proofs.Resolver.Trail

/-! # What is remembered

Every outcome that is stored is right: under a key of the bundle's own it is what
the link leads to without any memory, and under a key of another bundle it is that
bundle's answer. Storing a right outcome keeps it so.
-/

namespace Concordance

namespace Cache

variable (c : Cache) (key : CacheKey) (outcome : Resolution)

theorem get_fst : (c.get key).1 = c.find? key := by
  rw [get]
  split <;> simp_all

@[simp] theorem find?_get (k : CacheKey) : (c.get key).2.find? k = c.find? k := by
  rw [get]
  split <;> rfl

@[simp] theorem inFlight_get : (c.get key).2.inFlight = c.inFlight := by
  rw [get]
  split <;> rfl

theorem insert_fst : (c.insert key outcome).1 = (c.find? key).getD outcome := by
  rw [insert]
  split <;> simp_all

theorem find?_insert (k : CacheKey) :
    (c.insert key outcome).2.find? k =
      if k = key then some ((c.find? key).getD outcome) else c.find? k := by
  rw [insert]
  split
  · rename_i stored known
    by_cases same : k = key
    · simp [same, known]
    · simp [same]
  · rename_i unknown
    by_cases same : k = key
    · simp only [same, unknown, if_true, Option.getD_none]
      exact List.lookup_cons_self
    · have different : (k == key) = false := by simpa using same
      simp only [find?, List.lookup_cons, different, same, if_false]

@[simp] theorem inFlight_insert : (c.insert key outcome).2.inFlight = c.inFlight := by
  rw [insert]
  split <;> rfl

theorem begin?_eq_some {c marked : Cache} {key : CacheKey} (begun : c.begin? key = some marked) :
    key ∉ c.inFlight ∧ marked = { c with inFlight := key :: c.inFlight } := by
  rw [begin?] at begun
  split at begun
  · cases begun
  · rename_i unmarked
    cases begun
    exact ⟨by simpa using unmarked, rfl⟩

theorem begin?_eq_none {c : Cache} {key : CacheKey} (refused : c.begin? key = none) :
    key ∈ c.inFlight := by
  rw [begin?] at refused
  split at refused
  · rename_i marked
    simpa using marked
  · cases refused

theorem of_get {c asked : Cache} {key : CacheKey} {answer : Option Resolution}
    (got : c.get key = (answer, asked)) :
    c.find? key = answer ∧ (∀ k, asked.find? k = c.find? k) ∧ asked.inFlight = c.inFlight := by
  have found := c.get_fst key
  have same := c.find?_get key
  have flight := c.inFlight_get key
  rw [got] at found same flight
  exact ⟨found.symm, same, flight⟩

theorem of_begin? {c asked marked : Cache} {key : CacheKey} {answer : Option Resolution}
    (got : c.get key = (answer, asked)) (begun : asked.begin? key = some marked) :
    key ∉ c.inFlight ∧ (∀ k, marked.find? k = c.find? k) ∧
      marked.inFlight = key :: c.inFlight := by
  obtain ⟨_, same, flight⟩ := of_get got
  obtain ⟨fresh, rfl⟩ := begin?_eq_some begun
  rw [flight] at fresh
  exact ⟨fresh, same, congrArg _ flight⟩

theorem getOrInsert_outcome :
    (c.getOrInsert key outcome).1.outcome = (c.find? key).getD outcome := by
  have known := c.get_fst key
  rw [getOrInsert]
  split
  · rename_i stored _ got
    rw [got] at known
    rw [← known]
    rfl
  · rename_i looked got
    have same : looked = (c.get key).2 := by rw [got]
    change (looked.insert key outcome).1 = _
    rw [insert_fst, same, find?_get]

theorem find?_getOrInsert (k : CacheKey) :
    (c.getOrInsert key outcome).2.find? k =
      if k = key then some ((c.find? key).getD outcome) else c.find? k := by
  have known := c.get_fst key
  rw [getOrInsert]
  split
  · rename_i stored looked got
    have same : looked = (c.get key).2 := by rw [got]
    rw [got] at known
    rw [same, find?_get]
    split
    · rename_i here
      rw [here, ← known]
      rfl
    · rfl
  · rename_i looked got
    have same : looked = (c.get key).2 := by rw [got]
    simp only [find?_insert, same, find?_get]

theorem getOrInsert_made : (c.getOrInsert key outcome).1.made = (c.find? key).isNone := by
  have known := c.get_fst key
  rw [getOrInsert]
  split
  · rename_i got
    rw [got] at known
    rw [← known]
    rfl
  · rename_i got
    rw [got] at known
    rw [← known]
    rfl

@[simp] theorem inFlight_getOrInsert : (c.getOrInsert key outcome).2.inFlight = c.inFlight := by
  rw [getOrInsert]
  split
  · rename_i looked got
    rw [← inFlight_get c key, got]
  · rename_i looked got
    rw [inFlight_insert, ← inFlight_get c key, got]

end Cache

namespace Resolver

variable {r : Resolver} {link : WrittenLink} {referrer : Option Address} {outcome : Resolution}
  {c : Cache} {responder : Responder} {place : Nat}

/-- The outcomes that are stored are right. -/
structure Sound (r : Resolver) (c : Cache) : Prop where
  /-- Those of links looked up among the pages of the bundle. -/
  here : ∀ {link : WrittenLink} {scope : Option Address} {outcome : Resolution}, link.Parsed →
    c.find? ⟨r.atlas.bundle, link.text, scope⟩ = some outcome → r.Right link scope outcome
  /-- Those of links put to another bundle. -/
  elsewhere : ∀ {link : WrittenLink} {responder : Responder} {place : Nat} {outcome : Resolution},
    link.Parsed → r.claimant? link = some (responder, place) →
    c.find? ⟨responder.bundle, link.text, none⟩ = some outcome → outcome = responder.answer link

theorem Sound.empty : r.Sound {} where
  here _ stored := by cases stored
  elsewhere _ _ stored := by cases stored

theorem Sound.of_find? {c' : Cache} (sound : r.Sound c) (same : ∀ k, c'.find? k = c.find? k) :
    r.Sound c' where
  here parsed stored := sound.here parsed (same _ ▸ stored)
  elsewhere parsed claimed stored := sound.elsewhere parsed claimed (same _ ▸ stored)

/-- No other bundle has the name of this one. -/
def Apart (r : Resolver) : Prop :=
  ∀ responder ∈ r.responders, responder.bundle ≠ r.atlas.bundle

theorem claimant?_mem (claimed : r.claimant? link = some (responder, place)) :
    responder ∈ r.responders := by
  rw [claimant?] at claimed
  split at claimed
  · have member := List.mem_of_find?_eq_some claimed
    exact List.mem_of_getElem? (List.mem_zipIdx_iff_getElem?.mp member)
  · cases claimed

theorem Apart.claimant (apart : r.Apart) (claimed : r.claimant? link = some (responder, place)) :
    responder.bundle ≠ r.atlas.bundle :=
  apart responder (claimant?_mem claimed)

theorem Sound.settle (sound : r.Sound c) (apart : r.Apart) (parsed : link.Parsed)
    (right : r.Right link referrer outcome) :
    r.Right link referrer (c.insert (r.key link referrer) outcome).1 ∧
      r.Sound (c.insert (r.key link referrer) outcome).2 := by
  have kept : r.Right link referrer ((c.find? (r.key link referrer)).getD outcome) := by
    cases stored : c.find? (r.key link referrer) with
    | none => exact right
    | some known => exact (right_scope parsed).mp (sound.here parsed stored)
  refine ⟨by rw [Cache.insert_fst]; exact kept, ?_, ?_⟩
  · intro other scope known parsed' stored
    rw [Cache.find?_insert] at stored
    split at stored
    · rename_i same
      obtain ⟨-, text, rfl⟩ := CacheKey.mk.inj same
      obtain rfl := parsed'.eq_of_text parsed text
      cases stored
      exact (right_scope parsed).mpr kept
    · exact sound.here parsed' stored
  · intro other responder place known parsed' claimed stored
    rw [Cache.find?_insert, if_neg] at stored
    · exact sound.elsewhere parsed' claimed stored
    · intro same
      exact apart.claimant claimed (congrArg CacheKey.bundle same)

theorem Sound.ask {m : Memory} (sound : r.Sound m.cache) (apart : r.Apart) (parsed : link.Parsed)
    (claimed : r.claimant? link = some (responder, place)) :
    (m.ask responder place link).1 = responder.answer link ∧
      r.Sound (m.ask responder place link).2.cache := by
  have kept : (m.cache.find? ⟨responder.bundle, link.text, none⟩).getD (responder.answer link) =
      responder.answer link := by
    cases stored : m.cache.find? ⟨responder.bundle, link.text, none⟩ with
    | none => rfl
    | some known => exact sound.elsewhere parsed claimed stored
  refine ⟨by simp only [Memory.ask, Cache.getOrInsert_outcome, kept], ?_, ?_⟩
  · intro other scope known parsed' stored
    simp only [Memory.ask] at stored
    rw [Cache.find?_getOrInsert, if_neg] at stored
    · exact sound.here parsed' stored
    · intro same
      exact apart.claimant claimed (congrArg CacheKey.bundle same).symm
  · intro other responder' place' known parsed' claimed' stored
    simp only [Memory.ask] at stored
    rw [Cache.find?_getOrInsert] at stored
    split at stored
    · rename_i same
      obtain rfl := parsed'.eq_of_text parsed (congrArg CacheKey.text same)
      rw [claimed] at claimed'
      cases claimed'
      rw [kept] at stored
      cases stored
      rfl
    · exact sound.elsewhere parsed' claimed' stored

theorem inFlight_ask (m : Memory) :
    (m.ask responder place link).2.cache.inFlight = m.cache.inFlight := by
  simp only [Memory.ask, Cache.inFlight_getOrInsert]

end Resolver

end Concordance
