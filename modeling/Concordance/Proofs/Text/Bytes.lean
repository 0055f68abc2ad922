import Mathlib
import Concordance.Digest

/-! # Texts as bytes

The bytes of a text tell it from every other text, and are in order as the texts are: of two
characters the smaller one has the smaller bytes, whatever follows them.
-/

namespace Concordance.Digest

theorem toList_loop (bytes : ByteArray) (i : Nat) (before : List UInt8) :
    ByteArray.toList.loop bytes i before = before.reverse ++ bytes.data.toList.drop i := by
  fun_induction ByteArray.toList.loop bytes i before with
  | case1 i before inside ih =>
      have there : i < bytes.data.toList.length := by simpa using inside
      have byte : bytes.get! i = bytes.data.toList[i] := by
        simp [ByteArray.get!, inside]
      rw [ih, List.reverse_cons, List.append_assoc, List.drop_eq_getElem_cons there, byte]
      rfl
  | case2 i before outside =>
      have gone : bytes.data.toList.drop i = [] :=
        List.drop_eq_nil_of_le (by simpa using outside)
      rw [gone, List.append_nil]

theorem utf8_injective : Function.Injective utf8 := by
  intro s t same
  simp only [utf8, ByteArray.toList, toList_loop, List.reverse_nil, List.nil_append,
    List.drop_zero] at same
  exact String.toByteArray_inj.mp (ByteArray.ext (Array.toList_inj.mp same))

theorem utf8_eq (s : String) : utf8 s = s.toList.flatMap String.utf8EncodeChar := by
  simp only [utf8, ByteArray.toList, toList_loop, List.reverse_nil, List.nil_append, List.drop_zero]
  rw [String.toUTF8_eq_toByteArray, ← String.utf8Encode_toList, List.utf8Encode]
  simp

theorem ofNat_cons_lt_iff {m n : Nat} (byte : m < 256) (byte' : n < 256) {s t : List UInt8} :
    UInt8.ofNat m :: s < UInt8.ofNat n :: t ↔ m < n ∨ m = n ∧ s < t := by
  rw [List.cons_lt_cons_iff, UInt8.lt_iff_toNat_lt, ← UInt8.toNat_inj, UInt8.toNat_ofNat_of_lt' byte,
    UInt8.toNat_ofNat_of_lt' byte']

/-- The bytes of a smaller character come first, whatever stands behind either. -/
theorem utf8EncodeChar_lt {c d : Char} (less : c < d) (s t : List UInt8) :
    String.utf8EncodeChar c ++ s < String.utf8EncodeChar d ++ t := by
  have values : c.val.toNat < d.val.toNat := less
  have bound : d.val.toNat < 0x110000 := by
    rcases d.valid with low | high
    · exact low.trans (by decide)
    · exact high.2
  have digits (k : Nat) : k / 4096 = k / 64 / 64 ∧ k / 262144 = k / 64 / 64 / 64 := by omega
  simp only [String.utf8EncodeChar, digits]
  generalize c.val.toNat = m at *
  generalize d.val.toNat = n at *
  -- Of more bytes the first is larger; of as many, the first that differs, as digits do.
  split_ifs
  all_goals
    simp (disch := omega) only [List.cons_append, List.nil_append, ofNat_cons_lt_iff]
    omega

theorem flatMap_utf8_lt {l m : List Char} (less : l < m) :
    l.flatMap String.utf8EncodeChar < m.flatMap String.utf8EncodeChar := by
  induction l generalizing m with
  | nil =>
      cases m with
      | nil => exact absurd less (List.lt_irrefl _)
      | cons d m =>
          rw [List.flatMap_nil, List.flatMap_cons]
          cases bytes : String.utf8EncodeChar d with
          | nil => exact absurd bytes String.utf8EncodeChar_ne_nil
          | cons byte more => exact List.nil_lt_cons _ _
  | cons c l ih =>
      cases m with
      | nil => exact absurd less (List.not_lt_nil _)
      | cons d m =>
          rw [List.flatMap_cons, List.flatMap_cons]
          rcases List.cons_lt_cons_iff.mp less with first | ⟨rfl, later⟩
          · exact utf8EncodeChar_lt first _ _
          · exact List.append_left_lt (ih later)

theorem utf8_lt_iff {s t : String} : utf8 s < utf8 t ↔ s < t := by
  have forward {s t : String} (less : s < t) : utf8 s < utf8 t := by
    rw [utf8_eq, utf8_eq]
    exact flatMap_utf8_lt (String.lt_iff_toList_lt.mp less)
  refine ⟨fun less => ?_, forward⟩
  rcases lt_trichotomy s t with before | rfl | after
  · exact before
  · exact absurd less (List.lt_irrefl _)
  · exact absurd less (List.lt_asymm (forward after))

end Concordance.Digest
