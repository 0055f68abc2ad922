import Mathlib
import Concordance.Text.Casing

/-! # Lower case stays as it is

The tables turn no capital into another capital, so what comes from writing a text in
lower case is left alone when it is written in lower case again.
-/

namespace Concordance.Text

/-- As many code points as a run has capitals, and as far apart, from a first one. -/
def CasingRun.codes (run : CasingRun) (first : Nat) : List Nat :=
  (List.range ((run.2.1 - run.1) / run.2.2.1 + 1)).map fun k => first + run.2.2.1 * k

def capitals : List Nat :=
  List.range' 0x41 26 ++ 0x130 :: casingRuns.flatMap fun run => run.codes run.1

/-- The lower-case forms that the tables give. -/
def lowerForms : List Nat :=
  casingRuns.flatMap fun run => run.codes run.2.2.2

/-- A collection of numbers, as the bits that are set in one number. -/
def bits (codes : List Nat) : Nat :=
  codes.foldr (fun code set => set ||| 2 ^ code) 0

theorem testBit_bits {codes : List Nat} {code : Nat} :
    (bits codes).testBit code = true ↔ code ∈ codes := by
  induction codes with
  | nil => simp [bits]
  | cons first codes ih =>
      rw [bits, List.foldr_cons, ← bits, Nat.testBit_or, Bool.or_eq_true, ih, Nat.testBit_two_pow,
        decide_eq_true_eq, List.mem_cons, or_comm, eq_comm]

theorem not_mem_capitals {code : Nat} (form : code ∈ lowerForms) : code ∉ capitals := by
  intro capital
  -- Two collections of this size are compared at once, as numbers.
  have apart : bits capitals &&& bits lowerForms = 0 := by decide +kernel
  have both : (bits capitals &&& bits lowerForms).testBit code = true := by
    rw [Nat.testBit_and, testBit_bits.mpr capital, testBit_bits.mpr form, Bool.and_self]
  rw [apart, Nat.zero_testBit] at both
  cases both

theorem lowerForms_valid : ∀ code ∈ lowerForms, code.isValidChar := by decide +kernel

theorem lowerCode?_mem {code form : Nat} (found : lowerCode? code = some form) :
    code ∈ capitals ∧ form ∈ lowerForms := by
  obtain ⟨⟨first, last, step, target⟩, listed, found⟩ := List.exists_of_findSome?_eq_some found
  simp only [Option.ite_none_right_eq_some, Bool.and_eq_true, decide_eq_true_eq, beq_iff_eq,
    Option.some.injEq] at found
  obtain ⟨⟨⟨above, below⟩, even⟩, rfl⟩ := found
  have among (start : Nat) :
      start + (code - first) ∈ CasingRun.codes (first, last, step, target) start := by
    refine List.mem_map.mpr ⟨(code - first) / step, ?_, ?_⟩
    · rw [List.mem_range, Nat.lt_succ_iff]
      exact Nat.div_le_div_right (Nat.sub_le_sub_right below first)
    · rw [Nat.mul_div_cancel' (Nat.dvd_of_mod_eq_zero even)]
  have own := among first
  rw [Nat.add_sub_cancel' above] at own
  refine ⟨List.mem_append_right _ (List.mem_cons_of_mem _ ?_), ?_⟩
  · exact List.mem_flatMap.mpr ⟨_, listed, own⟩
  · exact List.mem_flatMap.mpr ⟨_, listed, among target⟩

theorem lowerChar_of_not_mem_capitals {c : Char} (small : c.toNat ∉ capitals) :
    lowerChar c = [c] := by
  rw [lowerChar]
  split
  · rw [Char.toLower, dif_neg]
    rintro ⟨low, high⟩
    refine small (List.mem_append_left _ (List.mem_range'_1.mpr ⟨low, ?_⟩))
    exact Nat.lt_succ_of_le high
  · have plain : (c.toNat == 0x130) = false :=
      beq_false_of_ne fun dotted => small (dotted ▸ by simp [capitals])
    rw [plain, if_neg Bool.false_ne_true]
    cases found : lowerCode? c.toNat with
    | none => rfl
    | some form => exact absurd (lowerCode?_mem found).1 small

theorem lowerChar_of_mem {c d : Char} (member : d ∈ lowerChar c) : lowerChar d = [d] := by
  rw [lowerChar] at member
  split at member
  · rename_i ascii
    have all : ∀ code < 128, lowerChar (Char.ofNat code).toLower = [(Char.ofNat code).toLower] := by
      decide +kernel
    have here := all c.toNat ascii
    rw [Char.ofNat_toNat] at here
    rwa [List.mem_singleton.mp member]
  · split at member
    · simp only [List.mem_cons, List.not_mem_nil, or_false] at member
      rcases member with rfl | rfl <;> decide +kernel
    · split at member
      · rename_i form found
        have given := (lowerCode?_mem found).2
        rw [List.mem_singleton.mp member]
        refine lowerChar_of_not_mem_capitals ?_
        rw [Char.toNat_ofNat, if_pos (lowerForms_valid form given)]
        exact not_mem_capitals given
      · rename_i ascii dotted _ none
        rw [List.mem_singleton.mp member, lowerChar, if_neg ascii, if_neg dotted, none]

theorem lowerChar_of_mem_lowerAfter {before s : List Char} {d : Char}
    (member : d ∈ lowerAfter before s) : lowerChar d = [d] := by
  induction s generalizing before with
  | nil => cases member
  | cons c s ih =>
      rw [lowerAfter] at member
      rcases List.mem_append.mp member with here | later
      · split at here
        · split at here
          · rw [List.mem_singleton.mp here]
            decide +kernel
          · rw [List.mem_singleton.mp here]
            decide +kernel
        · exact lowerChar_of_mem here
      · exact ih later

theorem lowerAfter_eq_self {before s : List Char} (small : ∀ c ∈ s, lowerChar c = [c]) :
    lowerAfter before s = s := by
  induction s generalizing before with
  | nil => rfl
  | cons c s ih =>
      obtain ⟨first, rest⟩ := List.forall_mem_cons.mp small
      have sigma : (c.toNat == 0x3A3) = false := by
        refine beq_false_of_ne fun capital => ?_
        have large : lowerChar '\u03A3' ≠ ['\u03A3'] := by decide +kernel
        rw [← Char.ofNat_toNat c, capital] at first
        exact large first
      rw [lowerAfter, sigma, if_neg Bool.false_ne_true, first, ih rest]
      rfl

end Concordance.Text
