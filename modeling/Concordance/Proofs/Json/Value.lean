import Mathlib
import Concordance.Proofs.Assoc
import Concordance.Proofs.Json.Pointer

/-! # JSON values in memory

Which values are held in memory, and how their equality reads entry by entry.
-/

namespace Concordance.Json

mutual

/-- Values as they are held in memory: the members of objects are in key order, and no array is
longer than indices reach. -/
def Held : Json → Prop
  | array items => items.length ≤ Pointer.largestIndex ∧ HeldItems items
  | object members => Assoc.Rising members ∧ HeldMembers members
  | null | bool _ | number _ | string _ | unreadable => True

def HeldItems : List Json → Prop
  | [] => True
  | item :: items => item.Held ∧ HeldItems items

def HeldMembers : List (String × Json) → Prop
  | [] => True
  | (_, value) :: members => value.Held ∧ HeldMembers members

end

theorem HeldItems.item {items : List Json} (h : HeldItems items) {item : Json}
    (member : item ∈ items) : item.Held := by
  induction items with
  | nil => cases member
  | cons first items ih =>
      rcases List.mem_cons.mp member with rfl | member
      · exact h.1
      · exact ih h.2 member

theorem HeldMembers.value {members : List (String × Json)} (h : HeldMembers members)
    {name : String} {value : Json} (member : (name, value) ∈ members) : value.Held := by
  induction members with
  | nil => cases member
  | cons first members ih =>
      obtain ⟨k, v⟩ := first
      rcases List.mem_cons.mp member with same | member
      · cases same
        exact h.1
      · exact ih h.2 member

theorem number_same_refl (n : Number) : n.same n = true := by
  cases n <;> simp [Number.same, Double.sameValue]

mutual

theorem same_refl (j : Json) : j.same j = true := by
  cases j with
  | null | unreadable => rfl
  | bool | string => simp [same]
  | number n => exact number_same_refl n
  | array items => exact sameItems_refl items
  | object members => exact sameMembers_refl members

theorem sameItems_refl (items : List Json) : sameItems items items = true := by
  cases items with
  | nil => rfl
  | cons item items => simp [sameItems, same_refl item, sameItems_refl items]

theorem sameMembers_refl (members : List (String × Json)) : sameMembers members members = true := by
  cases members with
  | nil => rfl
  | cons member members =>
      obtain ⟨k, v⟩ := member
      simp [sameMembers, same_refl v, sameMembers_refl members]

end

theorem sameMembers_iff {as bs : List (String × Json)} :
    sameMembers as bs = true ↔
      List.Forall₂ (fun a b => a.1 = b.1 ∧ a.2.same b.2 = true) as bs := by
  induction as generalizing bs with
  | nil => cases bs <;> simp [sameMembers]
  | cons a as ih =>
      obtain ⟨k, v⟩ := a
      cases bs with
      | nil => simp [sameMembers]
      | cons b bs =>
          obtain ⟨l, w⟩ := b
          simp [sameMembers, ih]

end Concordance.Json
