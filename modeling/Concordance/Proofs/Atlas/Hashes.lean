import Mathlib
import Concordance.Proofs.Atlas.Components
import Concordance.Proofs.Link.Component
import Concordance.Proofs.Text.Base36

/-! # Hashes that tell symbols apart

A hash is a word of at most seven digits of base thirty-six, from which its number can be
read. It is a suffix with nothing in it that a suffix is cut at, so it selects by what it is
as a whole, and a kind before it is cut off in full.
-/

namespace Concordance

open Component

theorem Text.isWord_base36 (n : Nat) : IsWord (base36 n).toList where
  long := (base36_alphanum n).1
  plain c member := .inl ((base36_alphanum n).2 c member)

theorem Text.dot_not_mem_base36 (n : Nat) : '.' ∉ (base36 n).toList :=
  fun member => absurd ((base36_alphanum n).2 '.' member) (by decide)

namespace Distinction

theorem base36_toNat_injective :
    Function.Injective fun value : UInt32 => Text.base36 value.toNat :=
  fun _ _ same => UInt32.toNat_inj.mp (Text.base36_injective same)

/-- A word of thirty-two bits is written with at most seven digits, none of them a leading zero, from
which it is read back. So no two words are written alike, and a hash is a suffix without any place
where a suffix is cut: it selects the symbols whose hash or kind it is, also behind a kind. -/
theorem hash_written :
    (∀ value : UInt32, Text.base36 value.toNat ≠ "" ∧ (Text.base36 value.toNat).length ≤ 7 ∧
      (∀ c ∈ (Text.base36 value.toNat).toList, c ∈ Text.base36Digits) ∧
      ((Text.base36 value.toNat).toList.head? = some '0' → Text.base36 value.toNat = "0") ∧
      Text.readBase36 (Text.base36 value.toNat).toList = value.toNat) ∧
    (Function.Injective fun value : UInt32 => Text.base36 value.toNat) ∧
    ∀ precise own, let hash := (ofSymbol precise own).hash
      (∃ value : UInt32, hash = Text.base36 value.toNat) ∧ isSuffix hash.toList = true ∧
      '-' ∉ hash.toList ∧ '.' ∉ hash.toList ∧
      (∀ d : Distinction, d.fits hash = true ↔ d.hash = hash ∨ d.kind = hash) ∧
      ∀ kind : String,
        Text.cutLast? '-' (kind ++ "-" ++ hash).toList = some (kind.toList, hash.toList) := by
  refine ⟨fun value => ⟨?_, Text.length_base36_toNat value, Text.base36_digits _, Text.base36_of_head?,
    Text.readBase36_base36 _⟩, base36_toNat_injective, fun precise own => ?_⟩
  · exact fun none => (Text.isWord_base36 value.toNat).long (by rw [none]; rfl)
  · have word : IsWord (ofSymbol precise own).hash.toList := Text.isWord_base36 _
    have undotted : '.' ∉ (ofSymbol precise own).hash.toList := Text.dot_not_mem_base36 _
    refine ⟨⟨_, rfl⟩, word.isSuffix, word.hyphen_not_mem, undotted, fun d => ?_, fun kind => ?_⟩
    · rw [fits_plain undotted word.hyphen_not_mem, eq_comm, @eq_comm _ d.kind]
    · have whole : (kind ++ "-" ++ (ofSymbol precise own).hash).toList =
          kind.toList ++ '-' :: (ofSymbol precise own).hash.toList := by
        simp [String.toList_append]
      rw [whole, Text.cutLast?_append word.hyphen_not_mem]

end Distinction

end Concordance
