import Mathlib
import Concordance.Proofs.Atlas.Lookup
import Concordance.Proofs.Atlas.WellFormed

/-! # Pages that their paths distinguish

A page's canonical path leads to it if every component on the way, the page's own
and those of the pages that hold it, selects the page it belongs to, and if no
other page is selected all along. Which page a component selects depends on the
names and suffixes that it can be read as, and on what stands beside the page.
-/

namespace Concordance

def Address.component (address : Address) : String := address.path.getLastD ""

namespace Atlas

variable {a : Atlas} {p q m n : Address}

/-- A page that fits the path of another as early as that one does, component by component. -/
inductive Rival (a : Atlas) : Address → Address → Prop where
  | root {p q : Address} (one : p ∈ a.roots) (other : q ∈ a.roots)
      (same : a.rank q.component p = a.rank q.component q) : Rival a p q
  | child {p q m n : Address} (above : Rival a p q) (one : m ∈ a.children p)
      (other : n ∈ a.children q) (same : a.rank n.component m = a.rank n.component n) : Rival a m n

/-- A page that fits its own path, and that no page fits earlier. -/
inductive Legible (a : Atlas) : Address → Prop where
  | root {q : Address} (member : q ∈ a.roots) (fits : a.Fits q.component q)
      (best : ∀ p ∈ a.roots, a.rank q.component q ≤ a.rank q.component p) : Legible a q
  | child {q n : Address} (above : Legible a q) (member : n ∈ a.children q)
      (fits : a.Fits n.component n)
      (best : ∀ p, Rival a p q → ∀ m ∈ a.children p,
        a.rank n.component n ≤ a.rank n.component m) : Legible a n

/-- A page that its canonical path leads to, and to no other. -/
structure Distinguished (a : Atlas) (n : Address) : Prop where
  /-- The path can be read as leading to the page. -/
  legible : a.Legible n
  /-- It cannot be read as leading elsewhere. -/
  alone : ∀ p, a.Rival p n → p = n

theorem Legible.rival_self (legible : a.Legible n) : a.Rival n n := by
  induction legible with
  | root member _ _ => exact .root member member rfl
  | child _ member _ _ ih => exact .child ih member member rfl

theorem WellFormed.not_child_of_root (wf : a.WellFormed) (root : q ∈ a.roots) : q ∉ a.children p := by
  intro child
  obtain ⟨page, found, parent⟩ := (wf.roots q).mp root
  obtain ⟨page', found', parent'⟩ := (wf.below p q).mp child
  rw [found] at found'
  cases found'
  rw [parent] at parent'
  cases parent'

theorem WellFormed.holder_unique (wf : a.WellFormed) (one : n ∈ a.children p)
    (other : n ∈ a.children q) : p = q := by
  obtain ⟨page, found, parent⟩ := (wf.below p n).mp one
  obtain ⟨page', found', parent'⟩ := (wf.below q n).mp other
  rw [found] at found'
  cases found'
  rw [parent] at parent'
  exact Option.some.inj parent'

theorem WellFormed.root_path (wf : a.WellFormed) (root : q ∈ a.roots) : q.path = [q.component] := by
  obtain ⟨page, found, parent⟩ := (wf.roots q).mp root
  have own := wf.own found
  cases wf.placed found with
  | module _ place _ _ =>
      rw [← own, place]
      rfl
  | symbol below _ _ _ _ | document below _ _ _ => rw [parent] at below; cases below

theorem WellFormed.child_path (wf : a.WellFormed) (child : n ∈ a.children q) :
    n.path = q.path ++ [n.component] := by
  obtain ⟨page, found, parent⟩ := (wf.below q n).mp child
  have own := wf.own found
  cases wf.placed found with
  | module root _ _ _ => rw [parent] at root; cases root
  | symbol below _ place _ _ =>
      rw [parent] at below
      cases below
      rw [← own, place]
      simp [Address.component, address]
  | document below _ place _ =>
      rw [parent] at below
      cases below
      rw [← own, place]
      rfl

theorem WellFormed.held (wf : a.WellFormed) {page : Page} (found : a.pages.get? n = some page)
    (parent : page.parent = some q) : a.pages.has q = true := by
  cases wf.placed found with
  | module root _ _ _ => rw [parent] at root; cases root
  | symbol below held _ _ _ | document below held _ _ =>
      rw [parent] at below
      cases below
      exact held

theorem WellFormed.path_ne_nil (wf : a.WellFormed) {page : Page} (found : a.pages.get? q = some page) :
    q.path ≠ [] := by
  have own := wf.own found
  cases wf.placed found with
  | module _ place _ _ | symbol _ _ place _ _ | document _ _ place _ =>
      rw [← own, place]
      simp [address]

/-- What holds of the roots, and of a page if it does of the one above, holds of every page. The
induction is on the path, which is one component longer than that of the page above. -/
theorem WellFormed.page_induction (wf : a.WellFormed) {P : Address → Prop}
    (root : ∀ n ∈ a.roots, P n)
    (child : ∀ q n, n ∈ a.children q → q.path ≠ [] → P q → P n)
    {page : Page} (found : a.pages.get? n = some page) : P n := by
  generalize own : n.path = path
  induction path using List.reverseRecOn generalizing n page with
  | nil => exact absurd own (wf.path_ne_nil found)
  | append_singleton path component ih =>
      cases parent : page.parent with
      | none => exact root n ((wf.roots n).mpr ⟨page, found, parent⟩)
      | some q =>
          have below := (wf.below q n).mpr ⟨page, found, parent⟩
          obtain ⟨same, _⟩ := List.append_inj' (own.symm.trans (wf.child_path below)) rfl
          obtain ⟨holder, there⟩ := Option.isSome_iff_exists.mp (wf.held found parent)
          exact child q n below (wf.path_ne_nil there) (ih there same.symm)

theorem WellFormed.rival_of_root (wf : a.WellFormed) (root : n ∈ a.roots) :
    a.Rival m n ↔ m ∈ a.roots ∧ a.rank n.component m = a.rank n.component n := by
  refine ⟨fun rival => ?_, fun ⟨one, same⟩ => .root one root same⟩
  cases rival with
  | root one _ same => exact ⟨one, same⟩
  | child _ _ child _ => exact absurd child (wf.not_child_of_root root)

theorem WellFormed.rival_of_child (wf : a.WellFormed) (child : n ∈ a.children q) :
    a.Rival m n ↔ ∃ p, a.Rival p q ∧ m ∈ a.children p ∧
      a.rank n.component m = a.rank n.component n := by
  refine ⟨fun rival => ?_, fun ⟨p, above, one, same⟩ => .child above one child same⟩
  cases rival with
  | root _ root _ => exact absurd child (wf.not_child_of_root root)
  | child above one child' same =>
      obtain rfl := wf.holder_unique child child'
      exact ⟨_, above, one, same⟩

theorem WellFormed.legible_of_root (wf : a.WellFormed) (root : n ∈ a.roots) :
    a.Legible n ↔ a.Fits n.component n ∧
      ∀ p ∈ a.roots, a.rank n.component n ≤ a.rank n.component p := by
  refine ⟨fun legible => ?_, fun ⟨fits, best⟩ => .root root fits best⟩
  cases legible with
  | root _ fits best => exact ⟨fits, best⟩
  | child _ child _ _ => exact absurd child (wf.not_child_of_root root)

theorem WellFormed.legible_of_child (wf : a.WellFormed) (child : n ∈ a.children q) :
    a.Legible n ↔ a.Legible q ∧ a.Fits n.component n ∧ ∀ p, a.Rival p q → ∀ m ∈ a.children p,
      a.rank n.component n ≤ a.rank n.component m := by
  refine ⟨fun legible => ?_, fun ⟨above, fits, best⟩ => .child above child fits best⟩
  cases legible with
  | root root _ _ => exact absurd child (wf.not_child_of_root root)
  | child above child' fits best =>
      obtain rfl := wf.holder_unique child child'
      exact ⟨above, fits, best⟩

theorem mem_follow_root (wf : a.WellFormed) (root : n ∈ a.roots) :
    (n ∈ a.matching a.roots n.component ↔ a.Legible n) ∧
      (a.Legible n → ∀ p, p ∈ a.matching a.roots n.component ↔ a.Rival p n) := by
  have selected : n ∈ a.matching a.roots n.component ↔ a.Legible n := by
    rw [mem_matching, wf.legible_of_root root]
    exact and_iff_right root
  refine ⟨selected, fun legible p => ?_⟩
  rw [mem_matching_iff_rank (selected.mpr legible), wf.rival_of_root root]

theorem mem_follow_child (wf : a.WellFormed) (child : n ∈ a.children q) {above : List Address}
    (selected : q ∈ above ↔ a.Legible q)
    (rivals : a.Legible q → ∀ p, p ∈ above ↔ a.Rival p q) :
    (n ∈ a.matching (above.flatMap a.children) n.component ↔ a.Legible n) ∧
      (a.Legible n → ∀ p, p ∈ a.matching (above.flatMap a.children) n.component ↔ a.Rival p n) := by
  have below : n ∈ a.matching (above.flatMap a.children) n.component ↔ a.Legible n := by
    simp only [mem_matching, wf.legible_of_child child, List.mem_flatMap]
    constructor
    · rintro ⟨⟨p, member, child'⟩, fits, best⟩
      obtain rfl := wf.holder_unique child child'
      have legible := selected.mp member
      exact ⟨legible, fits, fun p rival m inside =>
        best m ⟨p, (rivals legible p).mpr rival, inside⟩⟩
    · rintro ⟨legible, fits, best⟩
      refine ⟨⟨q, selected.mpr legible, child⟩, fits, ?_⟩
      rintro m ⟨p, member, inside⟩
      exact best p ((rivals legible p).mp member) m inside
  refine ⟨below, fun legible p => ?_⟩
  have legibleAbove := ((wf.legible_of_child child).mp legible).1
  rw [mem_matching_iff_rank (below.mpr legible), List.mem_flatMap, wf.rival_of_child child]
  simp only [rivals legibleAbove, ← and_assoc, exists_and_right]

/-- A page's own path leads to it if it is legible, and then to its rivals as well. -/
theorem mem_follow_path (wf : a.WellFormed) {page : Page} (found : a.pages.get? n = some page) :
    (n ∈ a.follow a.roots n.path ↔ a.Legible n) ∧
      (a.Legible n → ∀ p, p ∈ a.follow a.roots n.path ↔ a.Rival p n) := by
  refine wf.page_induction (P := fun n => (n ∈ a.follow a.roots n.path ↔ a.Legible n) ∧
    (a.Legible n → ∀ p, p ∈ a.follow a.roots n.path ↔ a.Rival p n)) ?_ ?_ found
  · intro n root
    rw [wf.root_path root]
    exact mem_follow_root wf root
  · intro q n child more ⟨selected, rivals⟩
    rw [wf.child_path child, follow_concat _ more]
    exact mem_follow_child wf child selected rivals

/-- A page's own path leads to the page alone exactly if it distinguishes it. -/
theorem follow_path_iff (wf : a.WellFormed) {page : Page} (found : a.pages.get? n = some page) :
    a.follow a.roots n.path = [n] ↔ a.Distinguished n := by
  obtain ⟨selected, rivals⟩ := mem_follow_path wf found
  rw [follow_unique, selected]
  constructor
  · rintro ⟨legible, alone⟩
    exact ⟨legible, fun p rival => alone p ((rivals legible p).mpr rival)⟩
  · rintro ⟨legible, alone⟩
    exact ⟨legible, fun p member => alone p ((rivals legible p).mp member)⟩

theorem lookup_self_iff (wf : a.WellFormed) {page : Page}
    (found : a.pages.get? page.address = some page) :
    a.lookup none page.address.path = .found page ↔ a.Distinguished page.address := by
  rw [← follow_path_iff wf found, lookup_found]
  constructor
  · rintro ⟨address, only, there⟩
    rw [← wf.own there] at only
    exact only
  · intro only
    exact ⟨page.address, only, found⟩

section Levels

theorem mem_follow_concat {path : List String} {component : String}
    (lead : n ∈ a.follow a.roots (path ++ [component])) :
    a.Fits component n ∧
      (path = [] ∧ n ∈ a.roots ∨ ∃ o ∈ a.follow a.roots path, n ∈ a.children o) := by
  by_cases more : path = []
  · subst more
    obtain ⟨member, fits, _⟩ := mem_matching.mp lead
    exact ⟨fits, .inl ⟨rfl, member⟩⟩
  · rw [follow_concat _ more] at lead
    obtain ⟨member, fits, _⟩ := mem_matching.mp lead
    exact ⟨fits, .inr (List.mem_flatMap.mp member)⟩

theorem mem_follow_length (wf : a.WellFormed) {path : List String}
    (lead : n ∈ a.follow a.roots path) : n.path.length = path.length := by
  induction path using List.reverseRecOn generalizing n with
  | nil => cases lead
  | append_singleton path component ih =>
      obtain ⟨_, ⟨rfl, root⟩ | ⟨o, above, child⟩⟩ := mem_follow_concat lead
      · rw [wf.root_path root]
        rfl
      · rw [wf.child_path child, List.length_append, List.length_append, ih above]
        rfl

theorem name_of_fits {component : String} {page : Page} (found : a.pages.get? n = some page)
    (alone : page.distinction = none) (fits : a.Fits component n) : page.name = component := by
  obtain ⟨reading, member, fit⟩ := fits
  simp only [fitsReading, found, alone, Option.any_none, Bool.and_eq_true, beq_iff_eq] at fit
  obtain ⟨name, suffix⟩ := fit
  rcases List.mem_cons.mp member with first | later
  · rw [name, first]
  · obtain ⟨cut, _, made⟩ := List.mem_filterMap.mp later
    rw [Component.readingOfCut?] at made
    split at made
    · cases made
      cases suffix
    · cases made

theorem WellFormed.root_page (wf : a.WellFormed) (root : n ∈ a.roots) :
    ∃ page, a.pages.get? n = some page ∧ page.distinction = none ∧ n = a.address [page.name] := by
  obtain ⟨page, found, parent⟩ := (wf.roots n).mp root
  cases wf.placed found with
  | module _ place alone _ => exact ⟨page, found, alone, (wf.own found).symm.trans place⟩
  | symbol below _ _ _ _ | document below _ _ _ => rw [parent] at below; cases below

theorem WellFormed.root_of_held (wf : a.WellFormed) {name : String}
    (held : a.pages.has (a.address [name]) = true) : a.address [name] ∈ a.roots := by
  obtain ⟨page, found⟩ := Option.isSome_iff_exists.mp held
  have own := wf.own found
  cases wf.placed found with
  | module root _ _ _ => exact (wf.roots _).mpr ⟨page, found, root⟩
  | @symbol path component below held place _ _ =>
      have paths : [name] = path ++ [component] := congrArg Address.path (own.symm.trans place)
      obtain ⟨holder, there⟩ := Option.isSome_iff_exists.mp held
      have more : path ≠ [] := wf.path_ne_nil there
      have sizes := congrArg List.length paths
      rw [List.length_append, List.length_singleton, List.length_singleton] at sizes
      exact absurd (List.length_eq_zero_iff.mp (by omega)) more
  | document below held place _ => cases congrArg Address.path (own.symm.trans place)

theorem root_of_follow (wf : a.WellFormed) {path : List String} (root : n ∈ a.roots)
    (lead : n ∈ a.follow a.roots path) : n.path = path := by
  obtain ⟨page, found, alone, place⟩ := wf.root_page root
  have size := mem_follow_length wf lead
  rw [wf.root_path root] at size
  obtain ⟨component, rfl⟩ := List.length_eq_one_iff.mp size.symm
  have last : n ∈ a.follow a.roots ([] ++ [component]) := lead
  rw [place, name_of_fits found alone (mem_follow_concat last).1]
  rfl

/-- No path but its own leads to a page that nothing tells apart. -/
theorem path_of_follow (wf : a.WellFormed) {path : List String} {page : Page}
    (found : a.pages.get? n = some page) (alone : page.distinction = none)
    (lead : n ∈ a.follow a.roots path) : n.path = path := by
  have own := wf.own found
  cases wf.placed found with
  | module root _ _ _ => exact root_of_follow wf ((wf.roots n).mpr ⟨page, found, root⟩) lead
  | symbol _ _ _ told _ => rw [alone] at told; cases told
  | @document home below held place _ =>
      have child := (wf.below _ n).mpr ⟨page, found, below⟩
      have size := mem_follow_length wf lead
      rw [← own, place] at size
      obtain ⟨first, component, rfl⟩ := List.length_eq_two.mp size.symm
      have last : n ∈ a.follow a.roots ([first] ++ [component]) := lead
      obtain ⟨fits, ⟨more, _⟩ | ⟨o, above, child'⟩⟩ := mem_follow_concat last
      · cases more
      · obtain rfl := wf.holder_unique child child'
        have home : [home] = [first] := root_of_follow wf (wf.root_of_held held) above
        cases home
        rw [← own, place, name_of_fits found alone fits]
        rfl

end Levels

section Criteria

/-- A page below one that is distinguished is so too if it fits its own component and every page
beside it fits that later or not at all. -/
theorem Distinguished.child (wf : a.WellFormed) (above : a.Distinguished q)
    (child : n ∈ a.children q) (fits : a.Fits n.component n)
    (apart : ∀ m ∈ a.children q, m ≠ n → a.rank n.component n < a.rank n.component m) :
    a.Distinguished n where
  legible := .child above.legible child fits fun p rival m inside => by
    obtain rfl := above.alone p rival
    by_cases same : m = n
    · rw [same]
    · exact Nat.le_of_lt (apart m inside same)
  alone m rival := by
    obtain ⟨p, rivalAbove, inside, same⟩ := (wf.rival_of_child child).mp rival
    obtain rfl := above.alone p rivalAbove
    by_contra different
    exact absurd same (Nat.ne_of_gt (apart m inside different))

theorem rank_eq_zero_iff {component : String} {page : Page}
    (found : a.pages.get? n = some page) : a.rank component n = 0 ↔ page.name = component := by
  rw [rank, Component.readings, List.findIdx_cons]
  simp only [fitsReading, found, Bool.and_true, Bool.cond_eq_ite, beq_iff_eq]
  split <;> simp_all

theorem fits_of_name {page : Page} (found : a.pages.get? n = some page) {component : String}
    (name : page.name = component) : a.Fits component n :=
  ⟨(component, none), List.mem_cons_self, by simp [fitsReading, found, name]⟩

theorem WellFormed.root_distinguished (wf : a.WellFormed) (root : n ∈ a.roots) :
    a.Distinguished n := by
  obtain ⟨page, found, _, place⟩ := wf.root_page root
  have name : page.name = n.component := by
    rw [place]
    rfl
  have first := (rank_eq_zero_iff found).mpr name
  refine ⟨.root root (fits_of_name found name) fun p _ => first ▸ Nat.zero_le _, ?_⟩
  intro p rival
  obtain ⟨one, same⟩ := (wf.rival_of_root root).mp rival
  obtain ⟨other, found', _, place'⟩ := wf.root_page one
  rw [first, rank_eq_zero_iff found'] at same
  rw [place', place, same, name]

/-- A page with its plain name is distinguished if the page above is and no page beside it has its
name. -/
theorem Distinguished.plain (wf : a.WellFormed) (above : a.Distinguished q)
    (child : n ∈ a.children q) {page : Page} (found : a.pages.get? n = some page)
    (name : page.name = n.component)
    (apart : ∀ m other, m ∈ a.children q → a.pages.get? m = some other →
      other.name = page.name → m = n) : a.Distinguished n := by
  refine above.child wf child (fits_of_name found name) fun m inside different => ?_
  rw [(rank_eq_zero_iff found).mpr name, Nat.pos_iff_ne_zero]
  intro first
  obtain ⟨other, found', _⟩ := (wf.below q m).mp inside
  rw [rank_eq_zero_iff found', ← name] at first
  exact different (apart m other inside found' first)

end Criteria

end Atlas

end Concordance
