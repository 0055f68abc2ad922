import Mathlib
import Concordance.Proofs.Json.Value

/-! # Canonical form

Values held in memory are in canonical form already, and the canonical form of a value
whose arrays are within reach of indices can be held. Values without floating-point
numbers that are equal as numbers are the same.
-/

namespace Concordance.Json

theorem canonicalItems_eq (items : List Json) : canonicalItems items = items.map canonical := by
  induction items with
  | nil => rfl
  | cons item items ih => rw [canonicalItems, ih, List.map_cons]

theorem canonicalMembers_eq (members : List (String × Json)) :
    canonicalMembers members = members.map fun member => (member.1, member.2.canonical) := by
  induction members with
  | nil => rfl
  | cons member members ih => rw [canonicalMembers, ih, List.map_cons]

theorem canonicalMembers_keys (members : List (String × Json)) :
    Assoc.keys (canonicalMembers members) = Assoc.keys members := by
  rw [canonicalMembers_eq, Assoc.keys, Assoc.keys, List.map_map]
  rfl

theorem get?_canonicalMembers (members : List (String × Json)) (name : String) :
    Assoc.get? (canonicalMembers members) name = (Assoc.get? members name).map canonical := by
  rw [canonicalMembers_eq]
  exact Assoc.get?_map_value members (fun _ value => value.canonical) name

theorem canonical_string (s : String) : (string s).canonical = string s := rfl

theorem canonical_optional (s : Option String) : (optional s).canonical = optional s := by
  cases s <;> rfl

theorem canonical_array_eq {items : List Json} (each : ∀ item ∈ items, item.canonical = item) :
    (array items).canonical = array items := by
  rw [canonical, canonicalItems_eq, List.map_congr_left each, List.map_id']

theorem canonical_object_eq {members : List (String × Json)} (rising : Assoc.Rising members)
    (each : ∀ member ∈ members, member.2.canonical = member.2) :
    (object members).canonical = object members := by
  have same : members.map (fun member => (member.1, member.2.canonical)) = members := by
    rw [List.map_congr_left fun member inside => congrArg (member.1, ·) (each member inside)]
    exact List.map_id members
  rw [canonical, canonicalMembers_eq, same, rising.ofList_eq]

mutual

theorem Held.canonical {j : Json} (held : j.Held) : j.canonical = j := by
  cases j with
  | array items => rw [Json.canonical, HeldItems.canonical held.2]
  | object members => rw [Json.canonical, HeldMembers.canonical held.2, held.1.ofList_eq]
  | null | bool | number | string | unreadable => rfl
termination_by structural j

theorem HeldItems.canonical {items : List Json} (held : HeldItems items) :
    canonicalItems items = items := by
  cases items with
  | nil => rfl
  | cons item items => rw [canonicalItems, Held.canonical held.1, HeldItems.canonical held.2]
termination_by structural items

theorem HeldMembers.canonical {members : List (String × Json)} (held : HeldMembers members) :
    canonicalMembers members = members := by
  cases members with
  | nil => rfl
  | cons member members =>
      obtain ⟨name, value⟩ := member
      rw [canonicalMembers, Held.canonical held.1, HeldMembers.canonical held.2]
termination_by structural members

end

theorem heldMembers_iff {members : List (String × Json)} :
    HeldMembers members ↔ ∀ member ∈ members, member.2.Held := by
  induction members with
  | nil => simp [HeldMembers]
  | cons member members ih => simp [HeldMembers, ih]

mutual

/-- Values whose arrays are no longer than indices reach. -/
def Indexable : Json → Prop
  | array items => items.length ≤ Pointer.largestIndex ∧ IndexableItems items
  | object members => IndexableMembers members
  | null | bool _ | number _ | string _ | unreadable => True

def IndexableItems : List Json → Prop
  | [] => True
  | item :: items => item.Indexable ∧ IndexableItems items

def IndexableMembers : List (String × Json) → Prop
  | [] => True
  | (_, value) :: members => value.Indexable ∧ IndexableMembers members

end

theorem indexableItems_iff {items : List Json} :
    IndexableItems items ↔ ∀ item ∈ items, item.Indexable := by
  induction items with
  | nil => simp [IndexableItems]
  | cons item items ih => simp [IndexableItems, ih]

theorem indexableMembers_iff {members : List (String × Json)} :
    IndexableMembers members ↔ ∀ member ∈ members, member.2.Indexable := by
  induction members with
  | nil => simp [IndexableMembers]
  | cons member members ih => simp [IndexableMembers, ih]

@[simp] theorem indexable_string (s : String) : (string s).Indexable := trivial

@[simp] theorem indexable_array {items : List Json} :
    (array items).Indexable ↔
      items.length ≤ Pointer.largestIndex ∧ ∀ item ∈ items, item.Indexable := by
  rw [Indexable, indexableItems_iff]

@[simp] theorem indexable_object {members : List (String × Json)} :
    (object members).Indexable ↔ ∀ member ∈ members, member.2.Indexable := by
  rw [Indexable, indexableMembers_iff]

mutual

theorem Indexable.held {j : Json} (indexable : j.Indexable) : j.canonical.Held := by
  cases j with
  | array items =>
      refine ⟨?_, IndexableItems.held indexable.2⟩
      rw [canonicalItems_eq, List.length_map]
      exact indexable.1
  | object members =>
      refine ⟨Assoc.rising_ofList _, heldMembers_iff.mpr fun member inside => ?_⟩
      exact heldMembers_iff.mp (IndexableMembers.held indexable) member (Assoc.mem_ofList inside)
  | null | bool | number | string | unreadable => trivial
termination_by structural j

theorem IndexableItems.held {items : List Json} (indexable : IndexableItems items) :
    HeldItems (canonicalItems items) := by
  cases items with
  | nil => trivial
  | cons item items => exact ⟨Indexable.held indexable.1, IndexableItems.held indexable.2⟩
termination_by structural items

theorem IndexableMembers.held {members : List (String × Json)}
    (indexable : IndexableMembers members) : HeldMembers (canonicalMembers members) := by
  cases members with
  | nil => trivial
  | cons member members =>
      obtain ⟨name, value⟩ := member
      exact ⟨Indexable.held indexable.1, IndexableMembers.held indexable.2⟩
termination_by structural members

end

mutual

/-- Values without floating-point numbers. -/
def Exact : Json → Prop
  | array items => ExactItems items
  | object members => ExactMembers members
  | number n => ∃ k, n = .whole k
  | null | bool _ | string _ | unreadable => True

def ExactItems : List Json → Prop
  | [] => True
  | item :: items => item.Exact ∧ ExactItems items

def ExactMembers : List (String × Json) → Prop
  | [] => True
  | (_, value) :: members => value.Exact ∧ ExactMembers members

end

theorem exactItems_iff {items : List Json} :
    ExactItems items ↔ ∀ item ∈ items, item.Exact := by
  induction items with
  | nil => simp [ExactItems]
  | cons item items ih => simp [ExactItems, ih]

theorem exactMembers_iff {members : List (String × Json)} :
    ExactMembers members ↔ ∀ member ∈ members, member.2.Exact := by
  induction members with
  | nil => simp [ExactMembers]
  | cons member members ih => simp [ExactMembers, ih]

@[simp] theorem exact_string (s : String) : (string s).Exact := trivial

@[simp] theorem exact_bool (b : Bool) : (bool b).Exact := trivial

@[simp] theorem exact_whole (n : Int) : (whole n).Exact := ⟨n, rfl⟩

@[simp] theorem exact_array {items : List Json} :
    (array items).Exact ↔ ∀ item ∈ items, item.Exact := by
  rw [Exact, exactItems_iff]

@[simp] theorem exact_object {members : List (String × Json)} :
    (object members).Exact ↔ ∀ member ∈ members, member.2.Exact := by
  rw [Exact, exactMembers_iff]

mutual

theorem Exact.canonical {j : Json} (exact : j.Exact) : j.canonical.Exact := by
  cases j with
  | array items => exact ExactItems.canonical exact
  | object members =>
      refine exactMembers_iff.mpr fun member inside => ?_
      exact exactMembers_iff.mp (ExactMembers.canonical exact) member (Assoc.mem_ofList inside)
  | null | bool | number | string | unreadable => exact exact
termination_by structural j

theorem ExactItems.canonical {items : List Json} (exact : ExactItems items) :
    ExactItems (canonicalItems items) := by
  cases items with
  | nil => trivial
  | cons item items => exact ⟨Exact.canonical exact.1, ExactItems.canonical exact.2⟩
termination_by structural items

theorem ExactMembers.canonical {members : List (String × Json)} (exact : ExactMembers members) :
    ExactMembers (canonicalMembers members) := by
  cases members with
  | nil => trivial
  | cons member members =>
      obtain ⟨name, value⟩ := member
      exact ⟨Exact.canonical exact.1, ExactMembers.canonical exact.2⟩
termination_by structural members

end

mutual

theorem Exact.eq_of_same {j k : Json} (exact : k.Exact) (equal : j.same k = true) : j = k := by
  cases j with
  | array items =>
      cases k with
      | array others => rw [ExactItems.eq_of_same exact equal]
      | null | bool | number | string | object | unreadable => cases equal
  | object members =>
      cases k with
      | object others => rw [ExactMembers.eq_of_same exact equal]
      | null | bool | number | string | array | unreadable => cases equal
  | number n =>
      cases k with
      | number m =>
          obtain ⟨i, rfl⟩ := exact
          cases n with
          | whole l => rw [eq_of_beq (a := l) equal]
          | double x => cases equal
      | null | bool | string | array | object | unreadable => cases equal
  | bool a =>
      cases k with
      | bool b => rw [eq_of_beq (a := a) equal]
      | null | number | string | array | object | unreadable => cases equal
  | string s =>
      cases k with
      | string t => rw [eq_of_beq (a := s) equal]
      | null | bool | number | array | object | unreadable => cases equal
  | null =>
      cases k with
      | null => rfl
      | bool | number | string | array | object | unreadable => cases equal
  | unreadable =>
      cases k with
      | unreadable => rfl
      | null | bool | number | string | array | object => cases equal
termination_by structural j

theorem ExactItems.eq_of_same {items others : List Json} (exact : ExactItems others)
    (equal : sameItems items others = true) : items = others := by
  cases items with
  | nil =>
      cases others with
      | nil => rfl
      | cons other others => cases equal
  | cons item items =>
      cases others with
      | nil => cases equal
      | cons other others =>
          simp only [sameItems, Bool.and_eq_true] at equal
          rw [Exact.eq_of_same exact.1 equal.1, ExactItems.eq_of_same exact.2 equal.2]
termination_by structural items

theorem ExactMembers.eq_of_same {members others : List (String × Json)}
    (exact : ExactMembers others) (equal : sameMembers members others = true) :
    members = others := by
  cases members with
  | nil =>
      cases others with
      | nil => rfl
      | cons other others => cases equal
  | cons member members =>
      obtain ⟨name, value⟩ := member
      cases others with
      | nil => cases equal
      | cons other others =>
          obtain ⟨name', value'⟩ := other
          simp only [sameMembers, Bool.and_eq_true, beq_iff_eq] at equal
          rw [equal.1.1, Exact.eq_of_same exact.1 equal.1.2, ExactMembers.eq_of_same exact.2 equal.2]
termination_by structural members

end

end Concordance.Json
