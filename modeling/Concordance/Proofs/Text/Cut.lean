import Mathlib
import Concordance.Text.Blank

/-! # Cutting and splitting texts

Cuts at the first and the last occurrence of a character, what is taken off the ends
of a text, and the pieces that a text of pieces and marks splits into.
-/

namespace Concordance.Text

theorem cut?_eq_some {mark : Char} {s before after : List Char}
    (h : cut? mark s = some (before, after)) : s = before ++ mark :: after ∧ mark ∉ before := by
  induction s generalizing before with
  | nil => cases h
  | cons c s ih =>
      rw [cut?] at h
      split at h
      · rename_i same
        cases h
        exact ⟨by rw [eq_of_beq same]; rfl, List.not_mem_nil⟩
      · rename_i different
        obtain ⟨⟨front, rest⟩, found, same⟩ := Option.map_eq_some_iff.mp h
        cases same
        obtain ⟨whole, absent⟩ := ih found
        refine ⟨by rw [whole]; rfl, ?_⟩
        simp only [List.mem_cons, not_or]
        exact ⟨fun same => different (by simp [same]), absent⟩

theorem cut?_append {mark : Char} {before : List Char} (absent : mark ∉ before)
    (after : List Char) : cut? mark (before ++ mark :: after) = some (before, after) := by
  induction before with
  | nil => simp [cut?]
  | cons c before ih =>
      simp only [List.mem_cons, not_or] at absent
      simp [cut?, Ne.symm absent.1, ih absent.2]

theorem cut?_eq_none {mark : Char} {s : List Char} (absent : mark ∉ s) : cut? mark s = none := by
  induction s with
  | nil => rfl
  | cons c s ih =>
      simp only [List.mem_cons, not_or] at absent
      simp [cut?, Ne.symm absent.1, ih absent.2]

theorem not_mem_of_cut? {mark : Char} {s : List Char} (whole : cut? mark s = none) : mark ∉ s := by
  intro there
  obtain ⟨before, after, split, absent⟩ := List.eq_append_cons_of_mem there
  rw [split, cut?_append absent] at whole
  cases whole

theorem cut?_eq (mark : Char) (s : List Char) :
    cut? mark s =
      if mark ∈ s then some (s.takeWhile (· != mark), (s.dropWhile (· != mark)).tail) else none := by
  by_cases there : mark ∈ s
  · obtain ⟨before, after, split, absent⟩ := List.eq_append_cons_of_mem there
    have passed : ∀ c ∈ before, (c != mark) = true := fun c member => by
      simpa using fun same : c = mark => absent (same ▸ member)
    rw [if_pos there, split, cut?_append absent, List.takeWhile_append_of_pos passed,
      List.dropWhile_append_of_pos passed, List.takeWhile_cons_of_neg (by simp),
      List.dropWhile_cons_of_neg (by simp), List.append_nil, List.tail_cons]
  · rw [if_neg there, cut?_eq_none there]

theorem takeWhile_bne {mark : Char} {s : List Char} (absent : mark ∉ s) :
    s.takeWhile (· != mark) = s :=
  List.takeWhile_eq_self_iff.mpr fun c member => by
    simpa using fun same : c = mark => absent (same ▸ member)

theorem stripStart?_append (lead rest : List Char) :
    stripStart? lead (lead ++ rest) = some rest := by
  induction lead with
  | nil => rfl
  | cons c lead ih => simp [stripStart?, ih]

theorem stripStart?_eq_some_iff {lead s rest : List Char} :
    stripStart? lead s = some rest ↔ s = lead ++ rest := by
  refine ⟨fun found => ?_, fun whole => whole ▸ stripStart?_append lead rest⟩
  induction lead generalizing s with
  | nil => exact Option.some.inj found
  | cons p lead ih =>
      cases s with
      | nil => cases found
      | cons c s =>
          rw [stripStart?] at found
          split at found
          · rename_i same
            rw [ih found, eq_of_beq same, List.cons_append]
          · cases found

theorem stripStart?_isSome_iff {lead s : List Char} :
    (stripStart? lead s).isSome = true ↔ lead <+: s := by
  simp only [Option.isSome_iff_exists, stripStart?_eq_some_iff]
  exact ⟨fun ⟨rest, whole⟩ => ⟨rest, whole.symm⟩, fun ⟨rest, whole⟩ => ⟨rest, whole.symm⟩⟩

theorem stripStart?_eq_none_iff {lead s : List Char} :
    stripStart? lead s = none ↔ ¬ lead <+: s := by
  rw [← stripStart?_isSome_iff, Option.not_isSome_iff_eq_none]

theorem occurs_iff {part s : List Char} : occurs part s = true ↔ part <:+: s := by
  induction s with
  | nil => simp [occurs]
  | cons c s ih =>
      rw [occurs, Bool.or_eq_true, stripStart?_isSome_iff, ih, List.infix_cons_iff]

theorem trimChars_eq_self {s : List Char} (first : ∀ c, s.head? = some c → isBlank c = false)
    (last : ∀ c, s.getLast? = some c → isBlank c = false) : trimChars s = s := by
  have kept (s : List Char) (first : ∀ c, s.head? = some c → isBlank c = false) :
      s.dropWhile isBlank = s := by
    cases s with
    | nil => rfl
    | cons c s => exact List.dropWhile_cons_of_neg (by simp [first c rfl])
  rw [trimChars, dropEndWhile, kept s first, kept s.reverse, List.reverse_reverse]
  intro c ends
  exact last c (by rwa [List.head?_reverse] at ends)

theorem trimChars_trimChars (s : List Char) : trimChars (trimChars s) = trimChars s := by
  have starts (s : List Char) (c : Char) (first : (s.dropWhile isBlank).head? = some c) :
      isBlank c = false := by
    have stops := List.head?_dropWhile_not isBlank s
    rwa [first] at stops
  refine trimChars_eq_self (fun c first => ?_) fun c last => ?_
  · obtain ⟨rest, whole⟩ : trimChars s <+: s.dropWhile isBlank := List.rdropWhile_prefix _ _
    exact starts s c (by rw [← whole, List.head?_append, first, Option.some_or])
  · rw [trimChars, dropEndWhile, List.getLast?_reverse] at last
    exact starts _ c last

theorem dropEndWhile_append_cons {p : Char → Bool} {c : Char} (kept : p c = false)
    (before after : List Char) :
    dropEndWhile p (before ++ c :: after) = before ++ c :: dropEndWhile p after := by
  have reversed : (before ++ c :: after).reverse = after.reverse ++ c :: before.reverse := by simp
  rw [dropEndWhile, dropEndWhile, reversed, List.dropWhile_append]
  split
  · rename_i gone
    rw [List.isEmpty_iff.mp gone, List.dropWhile_cons_of_neg (by simp [kept])]
    simp
  · simp

theorem cutLast?_append {mark : Char} {after : List Char} (absent : mark ∉ after)
    (before : List Char) : cutLast? mark (before ++ mark :: after) = some (before, after) := by
  have reversed : (before ++ mark :: after).reverse = after.reverse ++ mark :: before.reverse := by
    simp
  rw [cutLast?, reversed, cut?_append (by simpa using absent)]
  simp

theorem cutLast?_eq_some {mark : Char} {s before after : List Char}
    (h : cutLast? mark s = some (before, after)) : s = before ++ mark :: after ∧ mark ∉ after := by
  obtain ⟨⟨front, rest⟩, found, same⟩ := Option.map_eq_some_iff.mp h
  cases same
  obtain ⟨whole, absent⟩ := cut?_eq_some found
  refine ⟨?_, by simpa using absent⟩
  rw [← List.reverse_reverse s, whole]
  simp

theorem splitOn_flatMap_cons {α : Type} {mark : Char} (piece : α → List Char)
    (absent : ∀ x, mark ∉ piece x) (x : α) (xs : List α) :
    (piece x ++ xs.flatMap fun y => mark :: piece y).splitOn mark = (x :: xs).map piece := by
  have plain : ∀ y, ∀ c ∈ piece y, (c == mark) = false := by
    intro y c member
    simp only [beq_eq_false_iff_ne, ne_eq]
    intro same
    exact absent y (same ▸ member)
  rw [List.splitOn_eq_splitOnP]
  induction xs generalizing x with
  | nil => simpa using List.splitOnP_eq_singleton (plain x)
  | cons y xs ih =>
      rw [List.flatMap_cons, List.cons_append,
        List.splitOnP_append_cons_of_forall_mem (plain x) mark (beq_self_eq_true mark), ih y]
      rfl

end Concordance.Text
