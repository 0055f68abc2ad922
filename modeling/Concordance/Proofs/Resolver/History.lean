import Mathlib
import Concordance.Proofs.Resolver.Memory

/-! # Histories of the cache

Whatever calls a cache gets, the outcome that was first given for a key is given for it until
the cache is cleared, and nothing is made for that key meanwhile. The numbers that the cache
tells are counts of calls since it was cleared. Marks know nothing of that: a key is marked
from the call that marked it to the one that takes the mark off.
-/

namespace Concordance.Cache

/-- A call to a cache. A guard holds nothing but the key that it marks, so dropping it is
finishing with that key. -/
inductive Call where
  | get (key : CacheKey)
  | insert (key : CacheKey) (outcome : Resolution)
  /-- Ask for the outcome of a key, with a way to make one. -/
  | getOrInsert (key : CacheKey) (outcome : Resolution)
  /-- Ask for a guard of a key. -/
  | begin (key : CacheKey)
  /-- Drop the guard of a key. -/
  | finish (key : CacheKey)
  | clear
  deriving DecidableEq

namespace Call

/-- The key whose outcome is given in return. -/
def asks? : Call → Option CacheKey
  | get key | insert key _ | getOrInsert key _ => some key
  | begin _ | finish _ | clear => none

/-- The key that has an outcome afterwards. -/
def stores? : Call → Option CacheKey
  | insert key _ | getOrInsert key _ => some key
  | get _ | begin _ | finish _ | clear => none

def looks : Call → Bool
  | get _ | getOrInsert _ _ => true
  | insert _ _ | begin _ | finish _ | clear => false

end Call

/-- A call with what came of it. -/
structure Event where
  call : Call
  /-- The outcome given in return. -/
  outcome : Option Resolution := none
  /-- Whether the outcome was made for this call. -/
  made : Bool := false
  /-- Whether a guard was given in return. -/
  guarded : Bool := false
  deriving DecidableEq

def perform (c : Cache) (call : Call) : Event × Cache :=
  match call with
  | .get key => ({ call, outcome := (c.get key).1 }, (c.get key).2)
  | .insert key outcome =>
      ({ call, outcome := some (c.insert key outcome).1 }, (c.insert key outcome).2)
  | .getOrInsert key outcome =>
      let (answer, c) := c.getOrInsert key outcome
      ({ call, outcome := some answer.outcome, made := answer.made }, c)
  | .begin key =>
      match c.begin? key with
      | some c => ({ call, guarded := true }, c)
      | none => ({ call }, c)
  | .finish key => ({ call }, c.finish key)
  | .clear => ({ call }, c.clear)

/-- What a call gives for a key without an outcome. -/
def Call.unaided : Call → Option Resolution × Bool
  | insert _ outcome => (some outcome, false)
  | getOrInsert _ outcome => (some outcome, true)
  | get _ | begin _ | finish _ | clear => (none, false)

/-- A cache with its history, the latest event first. -/
structure Session where
  past : List Event := []
  cache : Cache := {}

def Session.call (s : Session) (call : Call) : Session where
  past := (s.cache.perform call).1 :: s.past
  cache := (s.cache.perform call).2

/-- A cache that is empty at first, after calls one after the other. -/
def session (calls : List Call) : Session := calls.foldl Session.call {}

def sinceClear (past : List Event) : List Event :=
  past.takeWhile fun e => e.call != .clear

/-- The keys for which an outcome was stored since the cache was cleared. -/
def storedKeys (past : List Event) : List CacheKey :=
  (sinceClear past).filterMap fun e => e.call.stores?

/-- A guard of the key was given and is not dropped yet. -/
def Guarded (key : CacheKey) (past : List Event) : Prop :=
  ∃ later e earlier, past = later ++ e :: earlier ∧ e.call = .begin key ∧ e.guarded = true ∧
    ∀ f ∈ later, f.call ≠ .finish key

/-- What holds of every history and of the cache that went through it. -/
structure Lawful (past : List Event) (c : Cache) : Prop where
  /-- An outcome that was stored is given until the cache is cleared, and none is made. -/
  stays : ∀ {later : List Event} {first : Event} {earlier : List Event} {key : CacheKey},
    past = later ++ first :: earlier → first.call.stores? = some key →
    (∀ e ∈ later, e.call ≠ .clear) →
    ∃ outcome, first.outcome = some outcome ∧
      ∀ e ∈ later, e.call.asks? = some key → e.outcome = some outcome ∧ e.made = false
  /-- For a key without an outcome, none is found, and the one that is offered is stored. -/
  starts : ∀ {later : List Event} {e : Event} {earlier : List Event} {key : CacheKey},
    past = later ++ e :: earlier → e.call.asks? = some key → key ∉ storedKeys earlier →
    (e.outcome, e.made) = e.call.unaided
  /-- The size is the number of keys that have an outcome. -/
  size : c.size = (storedKeys past).dedup.length
  /-- Every lookup is a hit or a miss. -/
  lookups : c.hits + c.misses = (sinceClear past).countP fun e => e.call.looks
  /-- A guard is given for a key exactly if it has none. -/
  guards : ∀ {later : List Event} {e : Event} {earlier : List Event} {key : CacheKey},
    past = later ++ e :: earlier → e.call = .begin key →
    (e.guarded = true ↔ ¬ Guarded key earlier)

section Calls

variable (c : Cache) (call : Call)

@[simp] theorem perform_call : (c.perform call).1.call = call := by
  cases call with
  | begin key =>
      rw [perform]
      split <;> rfl
  | get | insert | getOrInsert | finish | clear => rfl

theorem find?_perform (k : CacheKey) :
    (c.perform call).2.find? k =
      if call = .clear then none
      else if call.stores? = some k then (c.perform call).1.outcome
      else c.find? k := by
  cases call with
  | get key => simp [perform, Call.stores?]
  | insert key outcome =>
      simp only [perform, Call.stores?, find?_insert, insert_fst, Option.some.injEq, eq_comm]
      simp
  | getOrInsert key outcome =>
      simp only [perform, Call.stores?, find?_getOrInsert, getOrInsert_outcome, Option.some.injEq,
        eq_comm]
      simp
  | begin key =>
      rw [perform]
      split
      · rename_i begun
        simp [(begin?_eq_some begun).2, find?, Call.stores?]
      · simp [Call.stores?]
  | finish key => simp [perform, finish, find?, Call.stores?]
  | clear => rfl

theorem perform_outcome {key : CacheKey} (asks : call.asks? = some key) :
    ((c.perform call).1.outcome, (c.perform call).1.made) =
      match c.find? key with
      | some outcome => (some outcome, false)
      | none => call.unaided := by
  cases call with
  | get k =>
      cases asks
      simp only [perform, get_fst]
      cases c.find? key <;> rfl
  | insert k outcome =>
      cases asks
      simp only [perform, insert_fst]
      cases c.find? key <;> rfl
  | getOrInsert k outcome =>
      cases asks
      simp only [perform, getOrInsert_outcome, getOrInsert_made]
      cases c.find? key <;> rfl
  | begin | finish | clear => cases asks

theorem perform_outcome_isSome {key : CacheKey} (stores : call.stores? = some key) :
    (c.perform call).1.outcome.isSome = true := by
  cases call with
  | insert | getOrInsert => rfl
  | get | begin | finish | clear => cases stores

theorem mem_inFlight_perform (k : CacheKey) :
    k ∈ (c.perform call).2.inFlight ↔
      call = .begin k ∨ k ∈ c.inFlight ∧ call ≠ .finish k := by
  cases call with
  | get | insert | getOrInsert | clear => simp [perform, clear]
  | begin key =>
      rw [perform]
      split
      · rename_i begun
        rw [(begin?_eq_some begun).2]
        simp only [List.mem_cons, Call.begin.injEq, reduceCtorEq, ne_eq, not_false_eq_true,
          and_true]
        exact or_congr_left eq_comm
      · rename_i refused
        have marked := begin?_eq_none refused
        simp only [Call.begin.injEq, reduceCtorEq, ne_eq, not_false_eq_true, and_true]
        exact ⟨.inr, fun either => either.elim (fun same => same ▸ marked) id⟩
  | finish key =>
      simp only [perform, finish, List.mem_filter, bne_iff_ne, reduceCtorEq, false_or, ne_eq,
        Call.finish.injEq]
      exact and_congr_right fun _ => not_congr eq_comm

theorem perform_guarded (key : CacheKey) :
    (c.perform (.begin key)).1.guarded = true ↔ key ∉ c.inFlight := by
  rw [perform]
  split
  · rename_i begun
    simpa using (begin?_eq_some begun).1
  · rename_i refused
    simpa using begin?_eq_none refused

theorem lookups_perform :
    (c.perform call).2.hits + (c.perform call).2.misses =
      if call = .clear then 0 else c.hits + c.misses + if call.looks then 1 else 0 := by
  have get (key : CacheKey) :
      (c.get key).2.hits + (c.get key).2.misses = c.hits + c.misses + 1 := by
    rw [Cache.get]
    split <;> simp only <;> omega
  have insert (c : Cache) (key : CacheKey) (outcome : Resolution) :
      (c.insert key outcome).2.hits + (c.insert key outcome).2.misses = c.hits + c.misses := by
    rw [Cache.insert]
    split <;> rfl
  cases call with
  | get key => simpa [perform, Call.looks] using get key
  | insert key outcome => simpa [perform, Call.looks] using insert c key outcome
  | getOrInsert key outcome =>
      have looked := get key
      simp only [perform, getOrInsert, Call.looks, reduceCtorEq, if_false, if_true]
      split
      · rename_i got
        rw [got] at looked
        exact looked
      · rename_i got
        rw [got] at looked
        exact (insert _ key outcome).trans looked
  | begin key =>
      rw [perform]
      split
      · rename_i begun
        simp [(begin?_eq_some begun).2, Call.looks]
      · simp [Call.looks]
  | finish key => simp [perform, finish, Call.looks]
  | clear => rfl

theorem asks_of_stores {key : CacheKey} (stores : call.stores? = some key) :
    call.asks? = some key := by
  cases call with
  | insert | getOrInsert => exact stores
  | get | begin | finish | clear => cases stores

/-- A call stores one outcome for a key that has none, and else leaves the entries alone. -/
theorem entries_perform :
    (c.perform call).2.entries = c.entries ∨ (c.perform call).2.entries = [] ∨
      ∃ key outcome, c.find? key = none ∧
        (c.perform call).2.entries = (key, outcome) :: c.entries := by
  have get (key : CacheKey) : (c.get key).2.entries = c.entries := by
    rw [Cache.get]
    split <;> rfl
  have insert (c : Cache) (key : CacheKey) (outcome : Resolution) :
      (c.insert key outcome).2.entries = c.entries ∨ c.find? key = none ∧
        (c.insert key outcome).2.entries = (key, outcome) :: c.entries := by
    rw [Cache.insert]
    split
    · exact .inl rfl
    · rename_i unknown
      exact .inr ⟨unknown, rfl⟩
  cases call with
  | get key => exact .inl (get key)
  | insert key outcome =>
      rcases insert c key outcome with same | added
      · exact .inl same
      · exact .inr (.inr ⟨key, outcome, added⟩)
  | getOrInsert key outcome =>
      have looked := get key
      have unknown := find?_get c key key
      simp only [perform, getOrInsert]
      split
      · rename_i got
        rw [got] at looked
        exact .inl looked
      · rename_i c' got
        rw [got] at looked unknown
        rcases insert c' key outcome with same | ⟨none, added⟩
        · exact .inl (same.trans looked)
        · exact .inr (.inr ⟨key, outcome, unknown.symm.trans none, looked ▸ added⟩)
  | begin key =>
      rw [perform]
      split
      · rename_i begun
        simp [(begin?_eq_some begun).2]
      · exact .inl rfl
  | finish key => exact .inl rfl
  | clear => exact .inr (.inl rfl)

end Calls

theorem find?_isSome {c : Cache} {key : CacheKey} :
    (c.find? key).isSome = true ↔ key ∈ c.entries.map Prod.fst := by
  rw [find?, List.mem_map, ← Option.ne_none_iff_isSome, Ne, List.lookup_eq_none_iff]
  push Not
  simp

section Steps

variable {past : List Event} {e : Event} {key : CacheKey}

theorem sinceClear_cons :
    sinceClear (e :: past) = if e.call = .clear then [] else e :: sinceClear past := by
  by_cases cleared : e.call = .clear <;> simp [sinceClear, cleared]

theorem mem_storedKeys_cons : key ∈ storedKeys (e :: past) ↔
    e.call ≠ .clear ∧ (e.call.stores? = some key ∨ key ∈ storedKeys past) := by
  rw [storedKeys, sinceClear_cons]
  by_cases cleared : e.call = .clear
  · simp [cleared]
  · cases stores : e.call.stores? <;> simp [storedKeys, cleared, stores, eq_comm]

theorem guarded_cons : Guarded key (e :: past) ↔
    (e.call = .begin key ∧ e.guarded = true) ∨ (Guarded key past ∧ e.call ≠ .finish key) := by
  constructor
  · rintro ⟨later, f, earlier, whole, begun, guarded, open_⟩
    cases later with
    | nil =>
        cases whole
        exact .inl ⟨begun, guarded⟩
    | cons _ later =>
        cases whole
        rw [List.forall_mem_cons] at open_
        exact .inr ⟨⟨later, f, earlier, rfl, begun, guarded, open_.2⟩, open_.1⟩
  · rintro (⟨begun, guarded⟩ | ⟨⟨later, f, earlier, rfl, begun, guarded, open_⟩, other⟩)
    · exact ⟨[], e, past, rfl, begun, guarded, fun _ => nofun⟩
    · exact ⟨e :: later, f, earlier, rfl, begun, guarded, List.forall_mem_cons.mpr ⟨other, open_⟩⟩

end Steps

/-- The cache is what its history says. -/
structure Tracks (past : List Event) (c : Cache) : Prop where
  distinct : (c.entries.map Prod.fst).Nodup
  known : ∀ key, (c.find? key).isSome = true ↔ key ∈ storedKeys past
  lookups : c.hits + c.misses = (sinceClear past).countP fun e => e.call.looks
  marked : ∀ key, key ∈ c.inFlight ↔ Guarded key past

theorem Tracks.empty : Tracks [] {} where
  distinct := List.nodup_nil
  known key := by simp [find?, storedKeys, sinceClear]
  lookups := rfl
  marked key := by simp [Guarded]

theorem Tracks.call {past : List Event} {c : Cache} (tracks : Tracks past c) (call : Call) :
    Tracks ((c.perform call).1 :: past) (c.perform call).2 where
  distinct := by
    rcases entries_perform c call with same | none | ⟨key, outcome, unknown, added⟩
    · exact same ▸ tracks.distinct
    · exact none ▸ List.nodup_nil
    · rw [added, List.map_cons, List.nodup_cons]
      refine ⟨fun member => ?_, tracks.distinct⟩
      have known := find?_isSome.mpr member
      rw [unknown] at known
      cases known
  known key := by
    rw [find?_perform, mem_storedKeys_cons, perform_call]
    by_cases cleared : call = .clear
    · simp [cleared]
    · by_cases stores : call.stores? = some key
      · simp [cleared, stores, perform_outcome_isSome c call stores]
      · simp [cleared, stores, tracks.known]
  lookups := by
    rw [lookups_perform, sinceClear_cons, perform_call]
    by_cases cleared : call = .clear
    · simp [cleared]
    · simp [cleared, List.countP_cons, tracks.lookups]
  marked key := by
    rw [mem_inFlight_perform, guarded_cons, perform_call, ← tracks.marked]
    by_cases begun : call = .begin key
    · subst begun
      have given := perform_guarded c key
      by_cases marked : key ∈ c.inFlight <;> simp [given, marked]
    · simp [begun]

theorem Tracks.size {past : List Event} {c : Cache} (tracks : Tracks past c) :
    c.size = (storedKeys past).dedup.length := by
  have same : (c.entries.map Prod.fst).Perm (storedKeys past).dedup := by
    rw [List.perm_ext_iff_of_nodup tracks.distinct (List.nodup_dedup _)]
    intro key
    rw [← find?_isSome, tracks.known, List.mem_dedup]
  rw [← same.length_eq, List.length_map]
  rfl

section Sessions

theorem session_concat (calls : List Call) (call : Call) :
    session (calls ++ [call]) = (session calls).call call := by
  rw [session, List.foldl_append]
  rfl

theorem session_tracks (calls : List Call) : Tracks (session calls).past (session calls).cache := by
  induction calls using List.reverseRecOn with
  | nil => exact .empty
  | append_singleton calls call ih =>
      rw [session_concat]
      exact ih.call call

variable {calls : List Call} {later earlier : List Event} {first e : Event} {key : CacheKey}

/-- Every event of a history came of a call to a cache that went through what was before. -/
theorem exists_call (whole : (session calls).past = later ++ e :: earlier) :
    ∃ c, Tracks earlier c ∧ e = (c.perform e.call).1 := by
  induction calls using List.reverseRecOn generalizing later with
  | nil => simp [session] at whole
  | append_singleton calls call ih =>
      rw [session_concat] at whole
      cases later with
      | nil =>
          obtain ⟨rfl, rfl⟩ := List.cons.inj whole
          exact ⟨_, session_tracks calls, by rw [perform_call]⟩
      | cons f later => exact ih (List.cons.inj whole).2

theorem session_stays (whole : (session calls).past = later ++ first :: earlier)
    (stored : first.call.stores? = some key) (kept : ∀ e ∈ later, e.call ≠ .clear) :
    ∃ outcome, first.outcome = some outcome ∧ (session calls).cache.find? key = some outcome ∧
      ∀ e ∈ later, e.call.asks? = some key → e.outcome = some outcome ∧ e.made = false := by
  induction calls using List.reverseRecOn generalizing later with
  | nil => simp [session] at whole
  | append_singleton calls call ih =>
      rw [session_concat] at whole ⊢
      cases later with
      | nil =>
          obtain ⟨rfl, rfl⟩ := List.cons.inj whole
          rw [perform_call] at stored
          obtain ⟨outcome, given⟩ :=
            Option.isSome_iff_exists.mp (perform_outcome_isSome _ call stored)
          have other : call ≠ .clear := by
            rintro rfl
            cases stored
          refine ⟨outcome, given, ?_, fun _ => nofun⟩
          rw [Session.call, find?_perform, if_neg other, if_pos stored, given]
      | cons f later =>
          obtain ⟨rfl, rest⟩ := List.cons.inj whole
          rw [List.forall_mem_cons, perform_call] at kept
          obtain ⟨outcome, given, known, all⟩ := ih rest kept.2
          have now (asks : call.asks? = some key) :
              ((session calls).cache.perform call).1.outcome = some outcome ∧
                ((session calls).cache.perform call).1.made = false := by
            have answer := perform_outcome (session calls).cache call asks
            rw [known] at answer
            exact Prod.mk.inj answer
          refine ⟨outcome, given, ?_, List.forall_mem_cons.mpr ⟨?_, all⟩⟩
          · rw [Session.call, find?_perform, if_neg kept.1]
            split
            · rename_i stores
              exact (now (asks_of_stores call stores)).1
            · exact known
          · rw [perform_call]
            exact now

/-- Whatever calls a cache gets, its answers and its numbers are those of a cache that gives what
was stored first since it was cleared, and whose guards are alive until they are dropped. -/
theorem session_lawful (calls : List Call) :
    Lawful (session calls).past (session calls).cache where
  stays whole stored kept := by
    obtain ⟨outcome, given, _, all⟩ := session_stays whole stored kept
    exact ⟨outcome, given, all⟩
  starts {_ e _ key} whole asks fresh := by
    obtain ⟨c, tracks, came⟩ := exists_call whole
    have answer := perform_outcome c e.call asks
    have unknown : c.find? key = none := by
      rw [← Option.not_isSome_iff_eq_none, tracks.known]
      exact fresh
    rwa [← came, unknown] at answer
  size := (session_tracks calls).size
  lookups := (session_tracks calls).lookups
  guards {_ e _ key} whole begun := by
    obtain ⟨c, tracks, came⟩ := exists_call whole
    rw [came, begun, perform_guarded, tracks.marked]

end Sessions

end Concordance.Cache
