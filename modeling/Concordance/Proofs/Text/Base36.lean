import Mathlib
import Concordance.Text.Base36

/-! # Digits of base thirty-six

A number is written with letters and digits only, and with one of them at least. Every round
of writing keeps the number that is read in the end, so no two numbers are written alike. How
many digits there are is told by the logarithm.
-/

namespace Concordance.Text

/-- The digits in the order of their values. -/
def base36Digits : List Char := "0123456789abcdefghijklmnopqrstuvwxyz".toList

/-- The number that digits stand for behind those of another number. -/
def readBase36From (n : Nat) (s : List Char) : Nat :=
  s.foldl (fun n c => 36 * n + base36Digits.idxOf c) n

def readBase36 (s : List Char) : Nat := readBase36From 0 s

theorem base36Digit_mem {n : Nat} (low : n < 36) : base36Digit n ∈ base36Digits := by
  have all : ∀ m < 36, base36Digit m ∈ base36Digits := by decide
  exact all n low

theorem idxOf_base36Digit {n : Nat} (low : n < 36) : base36Digits.idxOf (base36Digit n) = n := by
  have all : ∀ m < 36, base36Digits.idxOf (base36Digit m) = m := by decide
  exact all n low

section Writing

variable {n : Nat} {written : List Char}

theorem base36Onto_digits (all : ∀ c ∈ written, c ∈ base36Digits) :
    ∀ c ∈ base36Onto n written, c ∈ base36Digits := by
  induction n, written using base36Onto.induct with
  | case1 n written low =>
      rw [base36Onto, if_pos low]
      exact List.forall_mem_cons.mpr ⟨base36Digit_mem low, all⟩
  | case2 n written high ih =>
      rw [base36Onto, if_neg high]
      exact ih (List.forall_mem_cons.mpr ⟨base36Digit_mem (Nat.mod_lt n (by decide)), all⟩)

/-- What is still to be written and what was written are read as one number. -/
theorem readBase36_base36Onto (n : Nat) (written : List Char) :
    readBase36 (base36Onto n written) = readBase36From n written := by
  induction n, written using base36Onto.induct with
  | case1 n written low =>
      rw [base36Onto, if_pos low, readBase36, readBase36From, List.foldl_cons,
        idxOf_base36Digit low, Nat.mul_zero, Nat.zero_add, readBase36From]
  | case2 n written high ih =>
      rw [base36Onto, if_neg high, ih, readBase36From, List.foldl_cons,
        idxOf_base36Digit (Nat.mod_lt n (by decide)), Nat.div_add_mod, readBase36From]

theorem head?_base36Onto (positive : n ≠ 0) : (base36Onto n written).head? ≠ some '0' := by
  induction n, written using base36Onto.induct with
  | case1 n written low =>
      have all : ∀ m < 36, m ≠ 0 → base36Digit m ≠ '0' := by decide
      rw [base36Onto, if_pos low, List.head?_cons]
      exact fun zero => all n low positive (Option.some.inj zero)
  | case2 n written high ih =>
      rw [base36Onto, if_neg high]
      exact ih (by omega)

theorem length_base36Onto (n : Nat) (written : List Char) :
    (base36Onto n written).length = Nat.log 36 n + 1 + written.length := by
  induction n, written using base36Onto.induct with
  | case1 n written low =>
      rw [base36Onto, if_pos low, List.length_cons, Nat.log_of_lt low]
      omega
  | case2 n written high ih =>
      rw [base36Onto, if_neg high, ih, List.length_cons,
        Nat.log_of_one_lt_of_le (by decide) (Nat.not_lt.mp high)]
      omega

end Writing

theorem base36_digits (n : Nat) : ∀ c ∈ (base36 n).toList, c ∈ base36Digits := by
  rw [base36, String.toList_ofList]
  exact base36Onto_digits fun _ => nofun

theorem length_base36 (n : Nat) : (base36 n).length = Nat.log 36 n + 1 := by
  rw [← String.length_toList, base36, String.toList_ofList, length_base36Onto, List.length_nil,
    Nat.add_zero]

theorem base36_alphanum (n : Nat) :
    (base36 n).toList ≠ [] ∧ ∀ c ∈ (base36 n).toList, c.isAlphanum = true := by
  have plain : base36Digits.all Char.isAlphanum = true := by decide +kernel
  refine ⟨fun none => ?_, fun c member => List.all_eq_true.mp plain c (base36_digits n c member)⟩
  have long := length_base36 n
  rw [← String.length_toList, none, List.length_nil] at long
  omega

theorem readBase36_base36 (n : Nat) : readBase36 (base36 n).toList = n := by
  rw [base36, String.toList_ofList, readBase36_base36Onto]
  rfl

theorem base36_injective : Function.Injective base36 := fun one other same => by
  rw [← readBase36_base36 one, same, readBase36_base36]

theorem base36_zero : base36 0 = "0" := by
  rw [base36, base36Onto]
  rfl

/-- Only zero is written with a zero in front. -/
theorem base36_of_head? {n : Nat} (zero : (base36 n).toList.head? = some '0') : base36 n = "0" := by
  rw [base36, String.toList_ofList] at zero
  rw [of_not_not fun positive => head?_base36Onto positive zero, base36_zero]

theorem length_base36_toNat (value : UInt32) : (base36 value.toNat).length ≤ 7 := by
  have bound : value.toNat < 36 ^ 7 := value.toNat_lt.trans (by decide)
  rw [length_base36]
  exact Nat.log_lt_of_lt_pow' (by decide) bound

example : base36 (2 ^ 32 - 1) = "1z141z3" := by cbv

end Concordance.Text
