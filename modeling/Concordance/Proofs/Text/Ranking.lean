import Mathlib
import Concordance.Proofs.Text.Bytes
import Concordance.Proofs.Text.Saturation

/-! # The ranking of near matches

The candidates that are near enough to a name have one order, by the edits it takes and then by
their bytes. The near matches are the first ones in it, so neither the order in which the
candidates come nor how often one does makes a difference.
-/

namespace Concordance.Text

variable {name : String} {candidates : List String}

/-- One text comes before another among the near matches of a name: fewer edits away, or as many
and with smaller bytes. -/
def Nearer (name a b : String) : Prop :=
  distance name.toList a.toList < distance name.toList b.toList ∨
    distance name.toList a.toList = distance name.toList b.toList ∧ Digest.utf8 a < Digest.utf8 b

/-- The texts of a collection that are near enough to a name. -/
def reach (name : String) (texts : Set String) : Set String :=
  {text ∈ texts | ∃ n ≤ max (name.toList.length / 2) 3, Edited n name.toList text.toList}

section Order

abbrev byDistance : Nat × String → Nat × String → Ordering :=
  compareLex (compareOn Prod.fst) (compareOn Prod.snd)

instance : Std.LawfulEqCmp byDistance where
  eq_of_compare {p q} same := by
    obtain ⟨distances, texts⟩ := compareLex_eq_eq.mp same
    exact Prod.ext (Nat.compare_eq_eq.mp distances) (Std.LawfulEqCmp.eq_of_compare texts)

instance (name : String) : IsStrictOrder String (Nearer name) where
  irrefl a less := by
    rcases less with nearer | ⟨-, before⟩
    · exact lt_irrefl _ nearer
    · exact List.lt_irrefl _ before
  trans a b c one other := by
    simp only [Nearer, Digest.utf8_lt_iff] at *
    rcases one with nearer | ⟨same, before⟩ <;> rcases other with nearer' | ⟨same', before'⟩
    · exact .inl (nearer.trans nearer')
    · exact .inl (same' ▸ nearer)
    · exact .inl (same ▸ nearer')
    · exact .inr ⟨same.trans same', before.trans before'⟩

end Order

/-- All candidates that are near enough, each once, the nearest first. -/
def ranking (name : String) (candidates : List String) : List String :=
  (dropRepeats ((scored name candidates).mergeSort nearerOrEqual)).map Prod.snd

theorem nearest_eq_take (name : String) (candidates : List String) :
    nearest name candidates = (ranking name candidates).take 3 := by
  rw [ranking, ← List.map_take]
  rfl

theorem mem_ranking {text : String} :
    text ∈ ranking name candidates ↔ text ∈ reach name {text | text ∈ candidates} := by
  have least := distance_isLeast name.toList text.toList
  have listed : text ∈ ranking name candidates ↔ ∃ d, (d, text) ∈ scored name candidates := by
    simp only [ranking, List.mem_map, mem_dropRepeats, List.mem_mergeSort, Prod.exists,
      exists_eq_right]
  rw [listed]
  constructor
  · rintro ⟨d, member⟩
    obtain ⟨inside, rfl, near⟩ := mem_scored.mp member
    exact ⟨inside, _, near, least.1⟩
  · rintro ⟨inside, n, near, edited⟩
    exact ⟨_, mem_scored.mpr ⟨inside, rfl, (least.2 edited).trans near⟩⟩

theorem ranking_rising (name : String) (candidates : List String) :
    (ranking name candidates).Pairwise (Nearer name) := by
  have rising : (dropRepeats ((scored name candidates).mergeSort nearerOrEqual)).Pairwise
      fun p q => byDistance p q = .lt := rising_mergeSort byDistance (scored name candidates)
  have own {d : Nat} {text : String}
      (member : (d, text) ∈ dropRepeats ((scored name candidates).mergeSort nearerOrEqual)) :
      distance name.toList text.toList = d :=
    (mem_scored.mp (List.mem_mergeSort.mp (mem_dropRepeats.mp member))).2.1
  refine List.pairwise_map.mpr (rising.imp_of_mem fun {p q} here there before => ?_)
  rw [byDistance, compareLex, Ordering.then_eq_lt, compareOn, compareOn, Nat.compare_eq_lt,
    Nat.compare_eq_eq, compare_lt_iff_lt] at before
  rw [Nearer, own here, own there, Digest.utf8_lt_iff]
  exact before

theorem eq_ranking {ranked : List String} (rising : ranked.Pairwise (Nearer name))
    (all : ∀ text, text ∈ ranked ↔ text ∈ reach name {text | text ∈ candidates}) :
    ranked = ranking name candidates :=
  rising.eq_of_mem_iff (ranking_rising name candidates) fun text => (all text).trans mem_ranking.symm

/-- The near matches of a name are the first three of the candidates that are near enough, in order
of the fewest edits and then of bytes, and depend on these alone. Distances are the fewest edits.
In words that hold the lengths of both texts no sum is too large and no cell is missing, so they
come out the same. -/
theorem nearest_ranked :
    (∀ a b, IsLeast {n | Edited n a b} (distance a b)) ∧
      (∀ top (a b : List Char), a.length < top → b.length < top →
        checkedDistance top a b = some (distance a b) ∧
          ∀ missing, wordDistance top missing a b = distance a b) ∧
      ∀ name candidates,
        (∃! ranked : List String, ranked.Pairwise (Nearer name) ∧
          (∀ text, text ∈ ranked ↔ text ∈ reach name {text | text ∈ candidates}) ∧
          nearest name candidates = ranked.take 3) ∧
        ∀ others : List String,
          reach name {text | text ∈ others} = reach name {text | text ∈ candidates} →
            nearest name others = nearest name candidates := by
  refine ⟨distance_isLeast, fun top a b short short' => ?_, fun name candidates => ⟨?_, ?_⟩⟩
  · exact ⟨checkedDistance_eq short short', fun missing => wordDistance_eq missing short short'⟩
  · refine ⟨ranking name candidates, ⟨ranking_rising name candidates, fun _ => mem_ranking,
      nearest_eq_take name candidates⟩, ?_⟩
    rintro ranked ⟨rising, all, -⟩
    exact eq_ranking rising all
  · intro others same
    have ranked : ranking name others = ranking name candidates :=
      eq_ranking (ranking_rising name others) fun text => by rw [mem_ranking, same]
    rw [nearest_eq_take, nearest_eq_take, ranked]

theorem nearest_ranked_repeats :
    ("kitten".toList.length < 2 ^ 64 - 1 ∧ "sitting".toList.length < 2 ^ 64 - 1 ∧
      checkedDistance (2 ^ 64 - 1) "kitten".toList "sitting".toList =
        some (distance "kitten".toList "sitting".toList) ∧
      ∀ missing, wordDistance (2 ^ 64 - 1) missing "kitten".toList "sitting".toList =
        distance "kitten".toList "sitting".toList) ∧
      reach "kitten" {text | text ∈ ["sitting", "mitten", "sitting"]} =
        reach "kitten" {text | text ∈ ["mitten", "sitting"]} ∧
      nearest "kitten" ["sitting", "mitten", "sitting"] = nearest "kitten" ["mitten", "sitting"] := by
  have short : "kitten".toList.length < 2 ^ 64 - 1 := by decide
  have short' : "sitting".toList.length < 2 ^ 64 - 1 := by decide
  have same : reach "kitten" {text | text ∈ ["sitting", "mitten", "sitting"]} =
      reach "kitten" {text | text ∈ ["mitten", "sitting"]} := by
    congr 1
    ext text
    grind
  exact ⟨⟨short, short', nearest_ranked.2.1 _ _ _ short short'⟩, same,
    (nearest_ranked.2.2 _ _).2 _ same⟩

-- Three edits are near enough to any name, and of candidates as near the smaller one comes first.
example : nearest "it" ["sit", "is", "sit", "it", "elsewhere", "at"] = ["it", "at", "is"] := by cbv

end Concordance.Text
