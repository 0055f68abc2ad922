import Mathlib
import Concordance.Atlas.Lookup
import Concordance.Proofs.Assoc
import Concordance.Proofs.Text.Repeats

/-! # What lookups find

Of several candidates a component selects those that fit it in the reading that
comes first: those of the lowest rank. A path selects what its last component
selects below the pages that the path before it selects.
-/

namespace Concordance.Atlas

variable {a : Atlas}

theorem mem_pageList {address : Address} {page : Page} (found : a.pages.get? address = some page) :
    page ∈ a.pageList :=
  List.mem_map.mpr ⟨(address, page), Assoc.mem_of_get? found, rfl⟩

theorem lookup_found {scope : Option Address} {components : List String} {page : Page} :
    a.lookup scope components = .found page ↔
      ∃ address, a.follow (a.startingPages scope) components = [address] ∧
        a.pages.get? address = some page := by
  simp only [lookup]
  constructor
  · intro found
    split at found
    · cases found
    · rename_i address only
      split at found
      · rename_i p present
        cases found
        exact ⟨address, only, present⟩
      · cases found
    · cases found
  · rintro ⟨address, only, present⟩
    simp only [only, present]

theorem mem_sortedSet {addresses : List Address} {x : Address} :
    x ∈ sortedSet addresses ↔ x ∈ addresses := by
  rw [sortedSet, Text.mem_dropRepeats, List.mem_mergeSort]

theorem sortedSet_eq_singleton {addresses : List Address} {x : Address} :
    sortedSet addresses = [x] ↔ x ∈ addresses ∧ ∀ y ∈ addresses, y = x := by
  constructor
  · intro only
    have members (y : Address) : y ∈ addresses ↔ y = x := by
      rw [← mem_sortedSet, only, List.mem_singleton]
    exact ⟨(members x).mpr rfl, fun y member => (members y).mp member⟩
  · rintro ⟨member, all⟩
    refine Text.dropRepeats_eq_singleton ?_ fun y inside => all y (List.mem_mergeSort.mp inside)
    intro nothing
    have inside : x ∈ addresses.mergeSort Address.le := List.mem_mergeSort.mpr member
    rw [nothing] at inside
    cases inside

section Ranks

variable {component : String} {candidates : List Address} {x : Address}

/-- How many readings of a component come before the first that a page fits. -/
def rank (a : Atlas) (component : String) (address : Address) : Nat :=
  (Component.readings component).findIdx fun reading => a.fitsReading reading address

def Fits (a : Atlas) (component : String) (address : Address) : Prop :=
  ∃ reading ∈ Component.readings component, a.fitsReading reading address = true

theorem fits_iff_rank_lt :
    a.Fits component x ↔ a.rank component x < (Component.readings component).length := by
  rw [rank, List.findIdx_lt_length]
  rfl

theorem mem_fitting {readings : List Component.Reading} :
    x ∈ a.fitting candidates readings ↔
      x ∈ candidates ∧ (∃ reading ∈ readings, a.fitsReading reading x = true) ∧
        ∀ y ∈ candidates, readings.findIdx (fun reading => a.fitsReading reading x) ≤
          readings.findIdx fun reading => a.fitsReading reading y := by
  induction readings with
  | nil => simp [fitting]
  | cons reading readings ih =>
      rw [fitting]
      split
      · -- No candidate fits the first reading, so all ranks are one higher.
        rename_i none
        have unfit : ∀ y ∈ candidates, a.fitsReading reading y = false := by
          simpa [List.filter_eq_nil_iff] using none
        rw [ih]
        refine and_congr_right fun member => ?_
        have ranks : ∀ y ∈ candidates,
            (reading :: readings).findIdx (fun reading => a.fitsReading reading y) =
              readings.findIdx (fun reading => a.fitsReading reading y) + 1 := by
          intro y inside
          rw [List.findIdx_cons, unfit y inside]
          rfl
        refine and_congr ?_ (forall₂_congr fun y inside => ?_)
        · simp [unfit x member]
        · rw [ranks x member, ranks y inside, Nat.add_le_add_iff_right]
      · rename_i some
        obtain ⟨z, inside⟩ := List.exists_mem_of_ne_nil _ some
        obtain ⟨inside, fits⟩ := List.mem_filter.mp inside
        rw [mem_sortedSet, List.mem_filter]
        refine and_congr_right fun _ => ?_
        constructor
        · intro here
          refine ⟨⟨reading, List.mem_cons_self, here⟩, fun y _ => ?_⟩
          rw [List.findIdx_cons, here]
          exact Nat.zero_le _
        · rintro ⟨_, best⟩
          have first := best z inside
          rw [List.findIdx_cons, List.findIdx_cons, fits] at first
          cases here : a.fitsReading reading x with
          | true => rfl
          | false =>
              rw [here] at first
              exact absurd first (Nat.not_succ_le_zero _)

/-- A component selects the candidates of the lowest rank. -/
theorem mem_matching :
    x ∈ a.matching candidates component ↔
      x ∈ candidates ∧ a.Fits component x ∧
        ∀ y ∈ candidates, a.rank component x ≤ a.rank component y :=
  mem_fitting

theorem Fits.of_rank {y : Address} (fits : a.Fits component x)
    (same : a.rank component y = a.rank component x) : a.Fits component y := by
  rw [fits_iff_rank_lt] at fits ⊢
  rw [same]
  exact fits

theorem mem_matching_iff_rank (selected : x ∈ a.matching candidates component) {y : Address} :
    y ∈ a.matching candidates component ↔
      y ∈ candidates ∧ a.rank component y = a.rank component x := by
  obtain ⟨member, fits, best⟩ := mem_matching.mp selected
  rw [mem_matching]
  constructor
  · rintro ⟨inside, _, best'⟩
    exact ⟨inside, Nat.le_antisymm (best' x member) (best y inside)⟩
  · rintro ⟨inside, same⟩
    exact ⟨inside, fits.of_rank same, same ▸ best⟩

theorem fitting_unique {readings : List Component.Reading} :
    a.fitting candidates readings = [x] ↔
      x ∈ a.fitting candidates readings ∧ ∀ y ∈ a.fitting candidates readings, y = x := by
  induction readings with
  | nil => simp [fitting]
  | cons reading readings ih =>
      rw [fitting]
      split
      · exact ih
      · rw [sortedSet_eq_singleton]
        simp only [mem_sortedSet]

end Ranks

section Paths

variable {x : Address}

theorem follow_concat (candidates : List Address) {path : List String} (more : path ≠ [])
    (component : String) :
    a.follow candidates (path ++ [component]) =
      a.matching ((a.follow candidates path).flatMap a.children) component := by
  induction path generalizing candidates with
  | nil => exact absurd rfl more
  | cons first path ih =>
      cases path with
      | nil => rfl
      | cons second path => exact ih _ (List.cons_ne_nil _ _)

theorem follow_unique {candidates : List Address} {path : List String} :
    a.follow candidates path = [x] ↔
      x ∈ a.follow candidates path ∧ ∀ y ∈ a.follow candidates path, y = x := by
  cases path using List.reverseRecOn with
  | nil => simp [follow]
  | append_singleton path component =>
      by_cases more : path = []
      · subst more
        exact fitting_unique
      · rw [follow_concat candidates more]
        exact fitting_unique

end Paths

end Concordance.Atlas
