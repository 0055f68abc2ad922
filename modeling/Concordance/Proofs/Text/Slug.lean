import Mathlib
import Concordance.Text.Slug
import Concordance.Proofs.Link.Identifier

/-! # What slugs are made of

A slug consists of letters, numbers and hyphens, none of which is blank, and blanks at the
end of a text leave its slug as it is.
-/

namespace Concordance.Text

def blankCodes : List Nat :=
  [0x9, 0xA, 0xB, 0xC, 0xD, 0x20, 0x85, 0xA0, 0x1680, 0x2000, 0x2001, 0x2002, 0x2003, 0x2004,
   0x2005, 0x2006, 0x2007, 0x2008, 0x2009, 0x200A, 0x2028, 0x2029, 0x202F, 0x205F, 0x3000]

theorem mem_blankCodes {c : Char} (blank : isBlank c = true) : c.toNat ∈ blankCodes := by
  simp only [isBlank, Bool.or_eq_true, Bool.and_eq_true, decide_eq_true_eq, beq_iff_eq] at blank
  simp only [blankCodes, List.mem_cons, List.not_mem_nil, or_false]
  omega

theorem forall_isBlank {P : Char → Prop} (listed : ∀ code ∈ blankCodes, P (Char.ofNat code))
    {c : Char} (blank : isBlank c = true) : P c := by
  have here := listed c.toNat (mem_blankCodes blank)
  rwa [Char.ofNat_toNat] at here

theorem not_isAlphanumeric_of_isBlank {c : Char} (blank : isBlank c = true) :
    isAlphanumeric c = false :=
  forall_isBlank (P := fun c => isAlphanumeric c = false) (by decide +kernel) blank

/-- Blanks are not letters, and a look for the letter beside a capital sigma ends at them. -/
theorem caseless_of_isBlank {c : Char} (blank : isBlank c = true) :
    casedRanges.holds c.toNat = false ∧ caseIgnorableRanges.holds c.toNat = false :=
  forall_isBlank (P := fun c => casedRanges.holds c.toNat = false ∧
    caseIgnorableRanges.holds c.toNat = false) (by decide +kernel) blank

theorem lowerChar_of_isBlank {c : Char} (blank : isBlank c = true) :
    (c.toNat == 0x3A3) = false ∧ lowerChar c = [c] :=
  forall_isBlank (P := fun c => (c.toNat == 0x3A3) = false ∧ lowerChar c = [c])
    (by decide +kernel) blank

theorem flatten_splitOnP (p : Char → Bool) (s : List Char) :
    (s.splitOnP p).flatten = s.filter fun c => !p c := by
  induction s with
  | nil => simp
  | cons c s ih =>
      rw [List.splitOnP_cons_eq_if_modifyHead]
      split
      · rename_i mark
        rw [List.flatten_cons, ih, List.filter_cons_of_neg (by simp [mark]), List.nil_append]
      · rename_i plain
        obtain ⟨first, rest, pieces⟩ := List.exists_cons_of_ne_nil (List.splitOnP_ne_nil p s)
        rw [pieces, List.flatten_cons] at ih
        rw [pieces, List.modifyHead_cons, List.flatten_cons, List.filter_cons_of_pos (by simp [plain]),
          List.cons_append, ih]

theorem of_mem_splitOnP {p : Char → Bool} {s piece : List Char} (found : piece ∈ s.splitOnP p)
    {c : Char} (member : c ∈ piece) : c ∈ s ∧ p c = false := by
  have inside : c ∈ (s.splitOnP p).flatten := List.mem_flatten.mpr ⟨piece, found, member⟩
  rw [flatten_splitOnP, List.mem_filter] at inside
  exact ⟨inside.1, by simpa using inside.2⟩

theorem mem_slug {s : String} {c : Char} (member : c ∈ (slug s).toList) :
    c = '-' ∨ isAlphanumeric c = true := by
  rw [slug, String.toList_ofList, joinSlugWords] at member
  rcases mem_of_mem_intercalate member with hyphen | ⟨word, among, inside⟩
  · exact .inl (List.mem_singleton.mp hyphen)
  · have piece := (List.mem_filter.mp among).1
    exact .inr (by simpa using (of_mem_splitOnP piece inside).2)

theorem not_isBlank_of_mem_slug {s : String} {c : Char} (member : c ∈ (slug s).toList) :
    isBlank c = false := by
  rcases mem_slug member with rfl | letter
  · decide
  · by_contra blank
    rw [not_isAlphanumeric_of_isBlank (by simpa using blank)] at letter
    cases letter

theorem slugWords_append_cons {mark : Char} (between : isAlphanumeric mark = false)
    (before after : List Char) :
    slugWords (before ++ mark :: after) = slugWords before ++ slugWords after := by
  have splits : (!isAlphanumeric mark) = true := by rw [between, Bool.not_false]
  rw [slugWords, List.splitOnP_append_cons before after splits, List.filter_append]
  rfl

section Blanks

variable {s blanks : List Char} (blank : ∀ c ∈ blanks, isBlank c = true)
include blank

theorem casedAhead_append_blanks : casedAhead (s ++ blanks) = casedAhead s := by
  have alone : casedAhead blanks = false := by
    cases blanks with
    | nil => rfl
    | cons c blanks =>
        obtain ⟨cased, ignored⟩ := caseless_of_isBlank (blank c List.mem_cons_self)
        rw [casedAhead, List.dropWhile_cons_of_neg (by simp [ignored])]
        exact cased
  rw [casedAhead, casedAhead, List.dropWhile_append]
  cases s.dropWhile fun c => caseIgnorableRanges.holds c.toNat with
  | nil => exact alone
  | cons c rest => rfl

theorem lowerAfter_append_blanks (before : List Char) :
    lowerAfter before (s ++ blanks) = lowerAfter before s ++ blanks := by
  induction s generalizing before with
  | nil =>
      -- Among the blanks themselves no capital sigma asks for its neighbours.
      induction blanks generalizing before with
      | nil => rfl
      | cons c blanks ih =>
          obtain ⟨plain, kept⟩ := lowerChar_of_isBlank (blank c List.mem_cons_self)
          have rest := ih (fun d member => blank d (List.mem_cons_of_mem _ member)) (c :: before)
          simp only [List.nil_append, lowerAfter, plain, kept, Bool.false_eq_true,
            if_false] at rest ⊢
          rw [rest]
          rfl
  | cons c s ih =>
      simp only [List.cons_append, lowerAfter, ih, casedAhead_append_blanks blank,
        List.append_assoc]

theorem slugWords_append_blanks : slugWords (s ++ blanks) = slugWords s := by
  induction blanks generalizing s with
  | nil => rw [List.append_nil]
  | cons c blanks ih =>
      obtain ⟨first, rest⟩ := List.forall_mem_cons.mp blank
      have none : slugWords blanks = [] := ih (s := []) rest
      rw [slugWords_append_cons (not_isAlphanumeric_of_isBlank first), none, List.append_nil]

end Blanks

theorem slug_trimEnd (s : String) : slug (trimEnd s) = slug s := by
  have whole : s.toList = dropEndWhile isBlank s.toList ++ s.toList.rtakeWhile isBlank :=
    List.rdropWhile_append_rtakeWhile.symm
  have blanks : ∀ c ∈ s.toList.rtakeWhile isBlank, isBlank c = true :=
    fun _ member => List.mem_rtakeWhile_imp member
  have same : slugWords (lowerAfter [] s.toList) =
      slugWords (lowerAfter [] (dropEndWhile isBlank s.toList)) := by
    rw [whole, lowerAfter_append_blanks blanks, slugWords_append_blanks blanks, ← whole]
  rw [slug, slug, same, trimEnd, String.toList_ofList]

end Concordance.Text
