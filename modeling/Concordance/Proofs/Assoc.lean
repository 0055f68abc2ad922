import Mathlib
import Concordance.Assoc
import Concordance.Proofs.Lists

/-! # Maps in key order

What putting a key does to the values of all keys and to the order of keys, and
that two maps in key order with related values under every key are related entry
by entry.
-/

namespace Concordance.Assoc

open Std

variable {κ ν : Type}

/-- The keys rise strictly, so that every key occurs once. -/
def Rising [Ord κ] (m : Assoc κ ν) : Prop :=
  m.Pairwise fun a b => compare a.1 b.1 = .lt

section Values

variable [BEq κ]

@[simp] theorem get?_nil (key : κ) : get? ([] : Assoc κ ν) key = none := rfl

@[simp] theorem get?_cons (k : κ) (v : ν) (m : Assoc κ ν) (key : κ) :
    get? ((k, v) :: m) key = if key == k then some v else m.get? key := by
  simp only [get?, List.lookup_cons]
  cases key == k <;> rfl

@[simp] theorem get?_append (a b : Assoc κ ν) (key : κ) :
    get? (a ++ b) key = (a.get? key).or (b.get? key) := by
  induction a with
  | nil => rfl
  | cons entry a ih =>
      obtain ⟨k, v⟩ := entry
      rw [List.cons_append, get?_cons, get?_cons, ih]
      split <;> rfl

omit [BEq κ] in
theorem keys_append (a b : Assoc κ ν) : keys (a ++ b) = a.keys ++ b.keys := List.map_append

variable [LawfulBEq κ]

theorem get?_cons_self (k : κ) (v : ν) (m : Assoc κ ν) :
    get? ((k, v) :: m) k = some v := by
  simp

theorem mem_of_get? {m : Assoc κ ν} {key : κ} {value : ν} (h : m.get? key = some value) :
    (key, value) ∈ m := by
  induction m with
  | nil => cases h
  | cons entry m ih =>
      rw [get?_cons] at h
      split at h
      · rename_i same
        cases h
        rw [eq_of_beq same]
        exact List.mem_cons_self
      · exact List.mem_cons_of_mem _ (ih h)

theorem has_iff {m : Assoc κ ν} {key : κ} : m.has key = true ↔ ∃ value, (key, value) ∈ m := by
  induction m with
  | nil => simp [has]
  | cons entry m ih =>
      obtain ⟨k, v⟩ := entry
      by_cases same : key = k
      · subst same
        simp [has]
      · simp only [has, get?_cons, beq_iff_eq, same, if_false, List.mem_cons, Prod.mk.injEq,
          false_and, false_or]
        exact ih

theorem has_iff_mem_keys {m : Assoc κ ν} {key : κ} : m.has key = true ↔ key ∈ m.keys := by
  rw [has_iff, keys, List.mem_map]
  constructor
  · rintro ⟨value, inside⟩
    exact ⟨_, inside, rfl⟩
  · rintro ⟨⟨k, value⟩, inside, rfl⟩
    exact ⟨value, inside⟩

theorem get?_eq_none_iff {m : Assoc κ ν} {key : κ} :
    m.get? key = none ↔ ∀ value, (key, value) ∉ m := by
  rw [← Option.not_isSome_iff_eq_none, ← not_exists]
  exact not_congr has_iff

theorem get?_map_value {μ : Type} (m : Assoc κ ν) (f : κ → ν → μ) (key : κ) :
    get? (m.map fun entry => (entry.1, f entry.1 entry.2)) key = (m.get? key).map (f key) := by
  induction m with
  | nil => rfl
  | cons entry m ih =>
      obtain ⟨k, v⟩ := entry
      rw [List.map_cons, get?_cons, get?_cons, ih]
      by_cases same : key = k
      · subst same
        simp
      · simp [same]

section Put

variable [Ord κ] [LawfulEqOrd κ]

theorem get?_put (m : Assoc κ ν) (key : κ) (value : ν) (k : κ) :
    (m.put key value).get? k = if k == key then some value else m.get? k := by
  induction m with
  | nil => simp only [put, get?_cons]
  | cons entry m ih =>
      obtain ⟨l, v⟩ := entry
      rw [put]
      cases order : compare key l with
      | lt => rw [get?_cons]
      | eq =>
          have same : key = l := LawfulEqOrd.eq_of_compare order
          subst same
          simp only [get?_cons]
          split <;> rfl
      | gt =>
          have different : key ≠ l := by
            intro same
            simp [same, ReflOrd.compare_self] at order
          simp only [get?_cons, ih]
          by_cases here : k = l
          · subst here
            simp [different.symm]
          · simp [here]

theorem has_put (m : Assoc κ ν) (key : κ) (value : ν) (k : κ) :
    (m.put key value).has k = (k == key || m.has k) := by
  simp only [has, get?_put]
  split <;> simp_all

theorem has_putNew (m : Assoc κ ν) (key : κ) (value : ν) (k : κ) :
    (m.putNew key value).has k = (k == key || m.has k) := by
  rw [putNew]
  split
  · rename_i there
    by_cases same : k = key <;> simp [same, there]
  · exact has_put m key value k

theorem perm_put {m : Assoc κ ν} {key : κ} (new : m.has key = false) (value : ν) :
    (m.put key value).Perm ((key, value) :: m) := by
  induction m with
  | nil => exact .refl _
  | cons entry m ih =>
      obtain ⟨l, v⟩ := entry
      rw [put]
      cases order : compare key l with
      | lt => exact .refl _
      | eq =>
          obtain rfl : key = l := LawfulEqOrd.eq_of_compare order
          simp [has] at new
      | gt =>
          have different : key ≠ l := by
            intro same
            simp [same, ReflOrd.compare_self] at order
          have later : has m key = false := by simpa [has, different] using new
          exact ((ih later).cons (l, v)).trans (.swap _ _ m)

end Put

theorem get?_erase (m : Assoc κ ν) (key k : κ) :
    (m.erase key).get? k = if k == key then none else m.get? k := by
  induction m with
  | nil => simp [erase]
  | cons entry m ih =>
      obtain ⟨l, v⟩ := entry
      simp only [erase] at ih
      by_cases same : l = key
      · subst same
        simp only [erase, List.filter_cons, bne_self_eq_false, Bool.false_eq_true, if_false, ih,
          get?_cons]
        split <;> rfl
      · by_cases here : k = l
        · subst here
          simp [erase, same]
        · simp [erase, same, here, ih]

end Values

section Order

variable [Ord κ]

theorem Rising.tail {entry : κ × ν} {m : Assoc κ ν} (h : Rising (entry :: m)) : Rising m :=
  (List.pairwise_cons.mp h).2

theorem Rising.filter {m : Assoc κ ν} (h : Rising m) (p : κ × ν → Bool) : Rising (m.filter p) :=
  List.Pairwise.filter p h

theorem Rising.erase [BEq κ] {m : Assoc κ ν} (h : Rising m) (key : κ) : Rising (m.erase key) :=
  h.filter _

theorem Rising.of_keys {μ : Type} {m : Assoc κ ν} {n : Assoc κ μ} (h : Rising m)
    (same : n.keys = m.keys) : Rising n := by
  have keysRise : m.keys.Pairwise fun a b => compare a b = .lt := List.pairwise_map.mpr h
  rw [← same] at keysRise
  exact List.pairwise_map.mp keysRise

theorem rising_of_sublist {m : Assoc κ ν} {keys : List κ} (known : m.keys.Sublist keys)
    (sorted : keys.Pairwise fun a b => compare a b = .lt) : Rising m :=
  List.pairwise_map.mp (sorted.sublist known)

theorem mem_put {m : Assoc κ ν} {key : κ} {value : ν} {entry : κ × ν}
    (h : entry ∈ m.put key value) : entry = (key, value) ∨ entry ∈ m := by
  induction m with
  | nil => simpa [put] using h
  | cons first m ih =>
      obtain ⟨l, v⟩ := first
      rw [put] at h
      cases order : compare key l with
      | lt => simpa [order] using h
      | eq =>
          simp only [order, List.mem_cons] at h
          rcases h with h | h
          · exact .inl h
          · exact .inr (List.mem_cons_of_mem _ h)
      | gt =>
          simp only [order, List.mem_cons] at h
          rcases h with h | h
          · exact .inr (h ▸ List.mem_cons_self)
          · rcases ih h with h | h
            · exact .inl h
            · exact .inr (List.mem_cons_of_mem _ h)

theorem mem_putNew [BEq κ] {m : Assoc κ ν} {key : κ} {value : ν} {entry : κ × ν}
    (h : entry ∈ m.putNew key value) : entry = (key, value) ∨ entry ∈ m := by
  rw [putNew] at h
  split at h
  · exact .inr h
  · exact mem_put h

theorem mem_ofList {pairs : List (κ × ν)} {entry : κ × ν} (h : entry ∈ ofList pairs) :
    entry ∈ pairs := by
  have each (m : Assoc κ ν) (pair : κ × ν) (there : entry ∈ m.put pair.1 pair.2) :
      entry ∈ m ∨ entry = pair := (mem_put there).symm
  rcases exists_of_foldl each h with nothing | ⟨pair, member, rfl⟩
  · cases nothing
  · exact member

variable [TransOrd κ] [LawfulEqOrd κ]

theorem Rising.put {m : Assoc κ ν} (h : Rising m) (key : κ) (value : ν) :
    Rising (m.put key value) := by
  induction m with
  | nil => exact List.pairwise_singleton _ _
  | cons first m ih =>
      obtain ⟨l, v⟩ := first
      obtain ⟨before, rest⟩ := List.pairwise_cons.mp h
      rw [Assoc.put]
      cases order : compare key l with
      | lt =>
          refine List.pairwise_cons.mpr ⟨?_, h⟩
          intro entry member
          rcases List.mem_cons.mp member with same | member
          · subst same
            exact order
          · exact TransCmp.lt_trans order (before entry member)
      | eq =>
          have same : key = l := LawfulEqOrd.eq_of_compare order
          subst same
          exact List.pairwise_cons.mpr ⟨before, rest⟩
      | gt =>
          refine List.pairwise_cons.mpr ⟨?_, ih rest⟩
          intro entry member
          rcases mem_put member with same | member
          · subst same
            exact OrientedCmp.lt_of_gt order
          · exact before entry member

theorem Rising.putNew [BEq κ] {m : Assoc κ ν} (h : Rising m) (key : κ) (value : ν) :
    Rising (m.putNew key value) := by
  rw [Assoc.putNew]
  split
  · exact h
  · exact h.put key value

theorem rising_foldl_put {α : Type} (pairs : List α) (key : α → κ) (value : α → ν)
    {m : Assoc κ ν} (h : Rising m) :
    Rising (pairs.foldl (fun m pair => m.put (key pair) (value pair)) m) :=
  List.foldlRecOn (motive := Rising) pairs _ h fun _ rising _ _ => rising.put _ _

omit [TransOrd κ] in
theorem Rising.nodup_keys {m : Assoc κ ν} (h : Rising m) : m.keys.Nodup := by
  refine List.pairwise_map.mpr (List.Pairwise.imp ?_ h)
  intro a b order same
  simp [same, ReflOrd.compare_self] at order

variable [BEq κ] [LawfulBEq κ]

theorem Rising.get?_eq_some_iff {m : Assoc κ ν} (h : Rising m) {key : κ} {value : ν} :
    m.get? key = some value ↔ (key, value) ∈ m := by
  refine ⟨mem_of_get?, fun member => ?_⟩
  induction m with
  | nil => cases member
  | cons first m ih =>
      obtain ⟨l, v⟩ := first
      obtain ⟨before, rest⟩ := List.pairwise_cons.mp h
      rw [get?_cons]
      rcases List.mem_cons.mp member with same | member
      · cases same
        simp
      · have order := before _ member
        have different : key ≠ l := by
          intro same
          simp [same, ReflOrd.compare_self] at order
        simpa [different] using ih rest member

/-- In a map in key order nothing stands under a key that is lower than the first. -/
theorem Rising.get?_of_lt {first : κ × ν} {m : Assoc κ ν} (h : Rising (first :: m)) {key : κ}
    (lower : compare key first.1 = .lt) : get? (first :: m) key = none := by
  rw [get?_eq_none_iff]
  intro value member
  have before : compare first.1 key = .lt ∨ first.1 = key := by
    rcases List.mem_cons.mp member with same | member
    · exact .inr (same ▸ rfl)
    · exact .inl ((List.pairwise_cons.mp h).1 _ member)
  rcases before with before | same
  · have := TransCmp.lt_trans lower before
    simp [ReflOrd.compare_self] at this
  · simp [same, ReflOrd.compare_self] at lower

omit [TransOrd κ] in
theorem Rising.get?_rest {k : κ} {v : ν} {m : Assoc κ ν} (h : Rising ((k, v) :: m)) :
    m.get? k = none := by
  rw [get?_eq_none_iff]
  intro value member
  have order := (List.pairwise_cons.mp h).1 _ member
  simp [ReflOrd.compare_self] at order

omit [TransOrd κ] in
/-- A key in the middle of a map is nowhere else in it, and taking it out leaves what is around. -/
theorem Rising.erase_middle {k : κ} {v : ν} {front rest : Assoc κ ν}
    (h : Rising (front ++ (k, v) :: rest)) :
    k ∉ front.keys ∧ (front ++ (k, v) :: rest).erase k = front ++ rest := by
  have distinct := h.nodup_keys
  rw [keys_append, keys, keys, List.map_cons, List.nodup_middle, List.nodup_cons, List.mem_append,
    not_or] at distinct
  obtain ⟨⟨before, after⟩, _⟩ := distinct
  have kept (m : Assoc κ ν) (absent : k ∉ m.map Prod.fst) : m.erase k = m :=
    List.filter_eq_self.mpr fun entry member => by
      simpa using fun same : entry.1 = k => absent (same ▸ List.mem_map_of_mem member)
  refine ⟨before, ?_⟩
  rw [Assoc.erase, List.filter_append, List.filter_cons_of_neg (by simp)]
  exact congrArg₂ _ (kept front before) (kept rest after)

/-- Adding to the list under a key adds to the lists of all keys together. -/
theorem Rising.flatMap_put_append {α : Type} {m : Assoc κ (List α)} (h : Rising m) (key : κ) (x : α) :
    ((m.put key ((m.get? key).getD [] ++ [x])).flatMap Prod.snd).Perm (x :: m.flatMap Prod.snd) := by
  induction m with
  | nil => exact .refl _
  | cons first m ih =>
      obtain ⟨l, v⟩ := first
      rw [Assoc.put]
      cases order : compare key l with
      | lt =>
          rw [h.get?_of_lt order]
          exact .refl _
      | eq =>
          have same : key = l := LawfulEqOrd.eq_of_compare order
          subst same
          simp only [get?_cons_self, Option.getD_some, List.flatMap_cons, List.append_assoc,
            List.singleton_append]
          exact List.perm_middle
      | gt =>
          have different : key ≠ l := by
            intro same
            simp [same, ReflOrd.compare_self] at order
          simp only [get?_cons, beq_iff_eq, different, if_false, List.flatMap_cons]
          exact ((ih h.tail).append_left v).trans List.perm_middle

theorem Rising.mem_flatMap_iff {α : Type} {m : Assoc κ (List α)} (h : Rising m) {x : α} :
    x ∈ m.flatMap Prod.snd ↔ ∃ key, x ∈ (m.get? key).getD [] := by
  rw [List.mem_flatMap]
  constructor
  · rintro ⟨⟨key, l⟩, entry, member⟩
    refine ⟨key, ?_⟩
    rw [h.get?_eq_some_iff.mpr entry]
    exact member
  · rintro ⟨key, member⟩
    cases found : m.get? key with
    | none => simp [found] at member
    | some l =>
        rw [found] at member
        exact ⟨(key, l), mem_of_get? found, member⟩

/-- Lists that share nothing and repeat nothing hold each of their members once. -/
theorem Rising.count_eq_one {α : Type} [BEq α] [LawfulBEq α] {m : Assoc κ (List α)} (h : Rising m)
    (once : (m.flatMap Prod.snd).Nodup) {key : κ} {x : α} (member : x ∈ (m.get? key).getD []) :
    ((m.get? key).getD []).count x = 1 ∧ (m.flatMap Prod.snd).count x = 1 := by
  refine ⟨List.count_eq_one_of_mem ?_ member,
    List.count_eq_one_of_mem once (h.mem_flatMap_iff.mpr ⟨key, member⟩)⟩
  cases found : m.get? key with
  | none => exact List.nodup_nil
  | some l => exact (List.nodup_flatMap.mp once).1 (key, l) (mem_of_get? found)

theorem Rising.forall₂_of_get? {μ : Type} {R : ν → μ → Prop} {m : Assoc κ ν} {n : Assoc κ μ}
    (hm : Rising m) (hn : Rising n)
    (related : ∀ key, Option.Rel R (m.get? key) (n.get? key)) :
    List.Forall₂ (fun a b => a.1 = b.1 ∧ R a.2 b.2) m n := by
  induction m generalizing n with
  | nil =>
      cases n with
      | nil => exact .nil
      | cons b n =>
          obtain ⟨l, w⟩ := b
          have here := related l
          rw [get?_cons_self] at here
          cases here
  | cons a m ih =>
      obtain ⟨k, v⟩ := a
      cases n with
      | nil =>
          have here := related k
          rw [get?_cons_self] at here
          cases here
      | cons b n =>
          obtain ⟨l, w⟩ := b
          have first : k = l := by
            cases order : compare k l with
            | eq => exact LawfulEqOrd.eq_of_compare order
            | lt =>
                have here := related k
                rw [hn.get?_of_lt order, get?_cons_self] at here
                cases here
            | gt =>
                have here := related l
                rw [hm.get?_of_lt (OrientedCmp.lt_of_gt order), get?_cons_self] at here
                cases here
          subst first
          have here := related k
          rw [get?_cons_self, get?_cons_self] at here
          cases here with
          | some here =>
              refine .cons ⟨rfl, here⟩ (ih hm.tail hn.tail ?_)
              intro key
              by_cases same : key = k
              · subst same
                rw [hm.get?_rest, hn.get?_rest]
                exact .none
              · simpa [same] using related key

/-- Maps in key order with the same values are one map. -/
theorem Rising.eq_of_get? {m n : Assoc κ ν} (hm : Rising m) (hn : Rising n)
    (same : ∀ key, m.get? key = n.get? key) : m = n := by
  have entries := hm.forall₂_of_get? (R := Eq) hn fun key => by
    rw [same key]
    cases n.get? key with
    | none => exact .none
    | some v => exact .some rfl
  rw [← List.forall₂_eq_eq_eq]
  exact entries.imp fun _ _ ⟨key, value⟩ => Prod.ext key value

theorem Rising.put_comm {m : Assoc κ ν} (h : Rising m) {k l : κ} (different : k ≠ l) (v w : ν) :
    (m.put k v).put l w = (m.put l w).put k v := by
  refine ((h.put k v).put l w).eq_of_get? ((h.put l w).put k v) fun key => ?_
  simp only [get?_put, beq_iff_eq]
  by_cases one : key = k
  · subst one
    simp [different]
  · simp [one]

end Order

section OfList

variable [Ord κ] [TransOrd κ] [LawfulEqOrd κ]

theorem rising_ofList (pairs : List (κ × ν)) : Rising (ofList pairs) :=
  rising_foldl_put pairs Prod.fst Prod.snd List.Pairwise.nil

variable [BEq κ] [LawfulBEq κ]

omit [TransOrd κ] in
/-- What stands under a key after entries were put is the last that was put there. -/
theorem get?_foldl_put_last {α : Type} (key : α → κ) (value : α → ν) (l : List α) (m : Assoc κ ν)
    (k : κ) : get? (l.foldl (fun m x => m.put (key x) (value x)) m) k =
      (((l.filter fun x => key x == k).getLast?).map value).or (m.get? k) := by
  induction l generalizing m with
  | nil => rfl
  | cons x l ih =>
      rw [List.foldl_cons, ih, get?_put, List.filter_cons]
      by_cases same : key x = k
      · subst same
        rw [if_pos BEq.rfl, if_pos BEq.rfl, List.getLast?_cons]
        cases (l.filter fun y => key y == key x).getLast? <;> rfl
      · rw [if_neg (by simpa using Ne.symm same), if_neg (by simpa using same)]

omit [TransOrd κ] in
theorem get?_foldl_put (added m : Assoc κ ν) (distinct : added.keys.Nodup) (key : κ) :
    get? (added.foldl (fun m entry => m.put entry.1 entry.2) m) key =
      (added.get? key).or (m.get? key) := by
  induction added generalizing m with
  | nil => rfl
  | cons entry added ih =>
      obtain ⟨k, v⟩ := entry
      obtain ⟨absent, distinct⟩ := List.nodup_cons.mp distinct
      rw [List.foldl_cons, ih _ distinct, get?_put, get?_cons]
      by_cases same : key = k
      · subst same
        have nowhere : get? added key = none := by
          rw [get?_eq_none_iff]
          intro value member
          exact absent (List.mem_map.mpr ⟨_, member, rfl⟩)
        simp [nowhere]
      · simp [same]

omit [TransOrd κ] [LawfulEqOrd κ] [Ord κ] in
theorem get?_of_mem {m : Assoc κ ν} (distinct : m.keys.Nodup) {key : κ} {value : ν}
    (member : (key, value) ∈ m) : m.get? key = some value := by
  induction m with
  | nil => cases member
  | cons entry m ih =>
      obtain ⟨k, v⟩ := entry
      obtain ⟨absent, distinct⟩ := List.nodup_cons.mp distinct
      rcases List.mem_cons.mp member with same | later
      · cases same
        exact get?_cons_self key value m
      · have other : key ≠ k := fun same => absent (List.mem_map.mpr ⟨_, later, same⟩)
        rw [get?_cons, if_neg (by simpa using other)]
        exact ih distinct later

omit [TransOrd κ] in
theorem get?_ofList {pairs : Assoc κ ν} (distinct : pairs.keys.Nodup) (key : κ) :
    get? (ofList pairs) key = pairs.get? key :=
  (get?_foldl_put pairs [] distinct key).trans (by simp)

theorem Rising.ofList_eq {m : Assoc κ ν} (h : Rising m) : ofList m = m :=
  (rising_ofList m).eq_of_get? h (get?_ofList h.nodup_keys)

omit [TransOrd κ] [LawfulEqOrd κ] [LawfulBEq κ] in
theorem mem_ofListFirst {pairs : List (κ × ν)} {entry : κ × ν} (h : entry ∈ ofListFirst pairs) :
    entry ∈ pairs := by
  have each (m : Assoc κ ν) (pair : κ × ν) (there : entry ∈ m.putNew pair.1 pair.2) :
      entry ∈ m ∨ entry = pair := (mem_putNew there).symm
  rcases exists_of_foldl each h with nothing | ⟨pair, member, rfl⟩
  · cases nothing
  · exact member

omit [TransOrd κ] in
theorem mem_keys_ofListFirst {pairs : List (κ × ν)} {key : κ} :
    key ∈ (ofListFirst pairs).keys ↔ key ∈ pairs.map Prod.fst := by
  have has (pairs : List (κ × ν)) (m : Assoc κ ν) :
      (pairs.foldl (fun m pair => m.putNew pair.1 pair.2) m).has key = true ↔
        m.has key = true ∨ key ∈ pairs.map Prod.fst := by
    induction pairs generalizing m with
    | nil => simp
    | cons pair pairs ih =>
        rw [List.foldl_cons, ih, has_putNew]
        simp only [Bool.or_eq_true, beq_iff_eq, List.map_cons, List.mem_cons]
        tauto
  rw [← has_iff_mem_keys, ofListFirst, has]
  exact or_iff_right fun nothing => nomatch nothing

omit [LawfulBEq κ] in
theorem rising_ofListFirst (pairs : List (κ × ν)) : Rising (ofListFirst pairs) :=
  List.foldlRecOn (motive := Rising) pairs _ List.Pairwise.nil fun _ rising pair _ =>
    rising.putNew pair.1 pair.2

end OfList

end Concordance.Assoc
