import Mathlib
import Concordance.Proofs.Text.Casing
import Concordance.Proofs.Text.Slug

/-! # The form of slugs

A slug is made of letters and digits in lower case and of hyphens, of which none stands at
an end or after another one. The texts of this form are those that are their own slugs.
-/

namespace Concordance.Text

/-- The form of slugs. A slug may be empty. -/
structure IsSlug (s : List Char) : Prop where
  chars : ∀ c ∈ s, c = '-' ∨ isAlphanumeric c = true
  lower : ∀ c ∈ s, lowerChar c = [c]
  single : s.IsChain fun c d => c = '-' → d ≠ '-'
  starts : s.head? ≠ some '-'
  ends : s.getLast? ≠ some '-'

theorem not_isAlphanumeric_hyphen : isAlphanumeric '-' = false := by decide +kernel

structure IsSlugWord (word : List Char) : Prop where
  long : word ≠ []
  plain : ∀ c ∈ word, isAlphanumeric c = true

section Words

variable {word : List Char} {words : List (List Char)} {s : List Char}

theorem IsSlugWord.ne_hyphen (own : IsSlugWord word) {c : Char} (member : c ∈ word) : c ≠ '-' := by
  rintro rfl
  have plain := own.plain '-' member
  rw [not_isAlphanumeric_hyphen] at plain
  cases plain

theorem isSlugWord_of_mem_slugWords (member : word ∈ slugWords s) :
    IsSlugWord word ∧ word ⊆ s := by
  obtain ⟨piece, long⟩ := List.mem_filter.mp member
  have own {c : Char} (inside : c ∈ word) := of_mem_splitOnP piece inside
  exact ⟨⟨by simpa using long, fun c inside => by simpa using (own inside).2⟩,
    fun c inside => (own inside).1⟩

theorem joinSlugWords_cons_cons (word next : List Char) (words : List (List Char)) :
    joinSlugWords (word :: next :: words) = word ++ '-' :: joinSlugWords (next :: words) := by
  rw [joinSlugWords, List.intercalate_cons_cons, List.append_assoc, List.singleton_append]
  rfl

theorem joinSlugWords_ne_nil (long : word ≠ []) : joinSlugWords (word :: words) ≠ [] := by
  cases words with
  | nil => simpa [joinSlugWords] using long
  | cons next words => simp [joinSlugWords_cons_cons]

theorem joinSlugWords_hyphens (own : ∀ word ∈ words, IsSlugWord word) :
    (joinSlugWords words).IsChain (fun c d => c = '-' → d ≠ '-') ∧
      (joinSlugWords words).head? ≠ some '-' ∧ (joinSlugWords words).getLast? ≠ some '-' := by
  have chain {word : List Char} (own : IsSlugWord word) :
      word.IsChain fun c d => c = '-' → d ≠ '-' :=
    (List.pairwise_of_forall_mem_list fun c member _ _ hyphen =>
      absurd hyphen (own.ne_hyphen member)).isChain
  have first {word : List Char} (own : IsSlugWord word) : word.head? ≠ some '-' :=
    fun hyphen => own.ne_hyphen (List.mem_of_head? hyphen) rfl
  have last {word : List Char} (own : IsSlugWord word) : word.getLast? ≠ some '-' :=
    fun hyphen => own.ne_hyphen (List.mem_of_getLast? hyphen) rfl
  induction words with
  | nil => exact ⟨.nil, nofun, nofun⟩
  | cons word words ih =>
      obtain ⟨here, later⟩ := List.forall_mem_cons.mp own
      cases words with
      | nil =>
          rw [joinSlugWords, List.intercalate_singleton]
          exact ⟨chain here, first here, last here⟩
      | cons next words =>
          obtain ⟨rest, starts, ends⟩ := ih later
          have some : joinSlugWords (next :: words) ≠ [] :=
            joinSlugWords_ne_nil (later next List.mem_cons_self).long
          rw [joinSlugWords_cons_cons]
          refine ⟨List.isChain_append.mpr ⟨chain here, List.isChain_cons.mpr ⟨?_, rest⟩, ?_⟩, ?_, ?_⟩
          · intro d head _ hyphen
            exact starts (hyphen ▸ head)
          · intro c tail _ _ hyphen
            exact absurd (hyphen ▸ tail) (last here)
          · rw [List.head?_append_of_ne_nil _ here.long]
            exact first here
          · rw [List.getLast?_append_of_ne_nil _ (List.cons_ne_nil _ _),
              List.getLast?_cons_of_ne_nil some]
            exact ends

theorem slugWords_word (own : IsSlugWord word) : slugWords word = [word] := by
  have plain : ∀ c ∈ word, (!isAlphanumeric c) = false :=
    fun c member => by rw [own.plain c member, Bool.not_true]
  rw [slugWords, List.splitOnP_eq_singleton plain]
  simp [own.long]

theorem joinSlugWords_slugWords (chars : ∀ c ∈ s, c = '-' ∨ isAlphanumeric c = true)
    (single : s.IsChain fun c d => c = '-' → d ≠ '-') (starts : s.head? ≠ some '-')
    (ends : s.getLast? ≠ some '-') : joinSlugWords (slugWords s) = s := by
  -- What follows the first hyphen has the same form, so the induction is on the length.
  induction size : s.length using Nat.strongRecOn generalizing s with
  | ind n ih =>
      have wordOf {word : List Char} (long : word ≠ []) (inside : word ⊆ s) (whole : '-' ∉ word) :
          IsSlugWord word :=
        ⟨long, fun c member => (chars c (inside member)).resolve_left fun hyphen =>
          whole (hyphen ▸ member)⟩
      by_cases hyphen : '-' ∈ s
      · obtain ⟨word, rest, rfl, whole⟩ := List.eq_append_cons_of_mem hyphen
        have long : word ≠ [] := by
          rintro rfl
          exact starts rfl
        have some : rest ≠ [] := by
          rintro rfl
          exact ends (by simp)
        obtain ⟨first, chain⟩ := List.isChain_cons.mp (List.isChain_append.mp single).2.1
        have later : joinSlugWords (slugWords rest) = rest := by
          refine ih rest.length ?_ (fun c member => chars c ?_) chain ?_ ?_ rfl
          · rw [← size, List.length_append, List.length_cons]
            omega
          · exact List.mem_append_right _ (List.mem_cons_of_mem _ member)
          · exact fun head => first '-' head rfl rfl
          · rwa [List.getLast?_append_of_ne_nil _ (List.cons_ne_nil _ _),
              List.getLast?_cons_of_ne_nil some] at ends
        rw [slugWords_append_cons not_isAlphanumeric_hyphen,
          slugWords_word (wordOf long (List.subset_append_left _ _) whole), List.singleton_append]
        cases words : slugWords rest with
        | nil =>
            rw [words] at later
            exact absurd later.symm some
        | cons next words => rw [joinSlugWords_cons_cons, ← words, later]
      · cases s with
        | nil => rfl
        | cons c s =>
            rw [slugWords_word (wordOf (List.cons_ne_nil c s) (List.Subset.refl _) hyphen),
              joinSlugWords, List.intercalate_singleton]

end Words

theorem isSlug_slug (s : String) : IsSlug (slug s).toList := by
  have own : ∀ word ∈ slugWords (lowerAfter [] s.toList), IsSlugWord word :=
    fun _ member => (isSlugWord_of_mem_slugWords member).1
  obtain ⟨single, starts, ends⟩ := joinSlugWords_hyphens own
  have whole : (slug s).toList = joinSlugWords (slugWords (lowerAfter [] s.toList)) :=
    String.toList_ofList
  refine ⟨fun c member => mem_slug member, fun c member => ?_, whole ▸ single, whole ▸ starts,
    whole ▸ ends⟩
  rw [whole, joinSlugWords] at member
  rcases mem_of_mem_intercalate member with hyphen | ⟨word, among, inside⟩
  · rw [List.mem_singleton.mp hyphen]
    decide
  · exact lowerChar_of_mem_lowerAfter ((isSlugWord_of_mem_slugWords among).2 inside)

theorem IsSlug.slug_eq {s : String} (own : IsSlug s.toList) : slug s = s := by
  rw [slug, lowerAfter_eq_self own.lower,
    joinSlugWords_slugWords own.chars own.single own.starts own.ends, String.ofList_toList]

/-- The slugs are the texts that have the form of slugs. -/
theorem slug_eq_self_iff {s : String} : slug s = s ↔ IsSlug s.toList :=
  ⟨fun same => same ▸ isSlug_slug s, IsSlug.slug_eq⟩

theorem slug_slug (s : String) : slug (slug s) = slug s := (isSlug_slug s).slug_eq

end Concordance.Text
