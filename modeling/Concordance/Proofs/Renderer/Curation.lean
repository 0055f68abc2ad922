import Mathlib
import Concordance.Proofs.Assoc
import Concordance.Proofs.Link.Address
import Concordance.Proofs.Text.Repeats
import Concordance.Renderer.Curation

/-! # Pages by their roles

The groups of pages part them: every page is in the group of its role, and in no other.
The groups come in the order of their roles, and the pages of each by their titles.
-/

namespace Concordance

namespace Curation

variable {pages : List Page} {role : String} {p : Page}

/-- Where a role stands in the order. All roles without a place share the one behind it. -/
def rank (role : String) : Nat := order.findIdx fun place => place.1 == role

/-- Roles by their places, and those without a place by name. -/
def roleOrder : String → String → Ordering := compareLex (compareOn rank) compare

/-- Pages by their titles, and those of one title by their addresses. -/
def pageOrder : Page → Page → Ordering := compareLex (compareOn Page.title) (compareOn Page.address)

instance : Std.TransCmp pageOrder :=
  inferInstanceAs (Std.TransCmp (compareLex (compareOn Page.title) (compareOn Page.address)))

def heading (role : String) : String := (order.lookup role).getD role

def roles (pages : List Page) : List String := (order ++ otherRoles pages).map Prod.fst

/-- Pages by their roles. No role is without a page. -/
def parts (pages : List Page) : List (String × List Page) :=
  ((roles pages).map fun role => (role, ofRole pages role)).filter fun part => !part.2.isEmpty

/-- Lists of pages with their roles that part some pages. -/
structure Parts (pages : List Page) (parts : List (String × List Page)) : Prop where
  /-- Every page is in one list, once, and no other page is. -/
  perm : (parts.flatMap Prod.snd).Perm pages
  ofRole : ∀ part ∈ parts, ∀ p ∈ part.2, p.role = part.1
  filled : ∀ part ∈ parts, part.2 ≠ []
  rising : parts.Pairwise fun part other => roleOrder part.1 other.1 = .lt
  sorted : ∀ part ∈ parts, part.2.Pairwise fun p q => pageOrder p q = .lt

section Roles

theorem mem_otherRoles {entry : String × String} (member : entry ∈ otherRoles pages) :
    order.lookup entry.1 = none ∧ entry.2 = entry.1 := by
  obtain ⟨role, listed, rfl⟩ := List.mem_map.mp member
  rw [Text.mem_dropRepeats, List.mem_mergeSort, List.mem_filter] at listed
  exact ⟨by simpa using listed.2, rfl⟩

theorem rank_other (other : order.lookup role = none) : rank role = order.length := by
  refine List.findIdx_eq_length.mpr fun place member => ?_
  have different := List.lookup_eq_none_iff.mp other place member
  rw [bne_iff_ne] at different
  exact beq_false_of_ne different.symm

theorem heading_eq {entry : String × String} (member : entry ∈ order ++ otherRoles pages) :
    heading entry.1 = entry.2 := by
  rcases List.mem_append.mp member with placed | other
  · have all : ∀ entry ∈ order, heading entry.1 = entry.2 := by decide
    exact all entry placed
  · obtain ⟨absent, same⟩ := mem_otherRoles other
    rw [heading, absent, same, Option.getD_none]

theorem role_mem_roles (member : p ∈ pages) : p.role ∈ roles pages := by
  cases placed : order.lookup p.role with
  | some title =>
      have entry : (p.role, title) ∈ order := Assoc.mem_of_get? placed
      exact List.mem_map.mpr ⟨_, List.mem_append_left _ entry, rfl⟩
  | none =>
      have other : (p.role, p.role) ∈ otherRoles pages := by
        refine List.mem_map.mpr ⟨p.role, ?_, rfl⟩
        rw [Text.mem_dropRepeats, List.mem_mergeSort, List.mem_filter]
        exact ⟨List.mem_map_of_mem member, by simp [placed]⟩
      exact List.mem_map.mpr ⟨_, List.mem_append_right _ other, rfl⟩

theorem roleOrder_lt_of_rank {one other : String} (before : rank one < rank other) :
    roleOrder one other = .lt := by
  have ranks : compareOn rank one other = .lt := Nat.compare_eq_lt.mpr before
  rw [roleOrder, compareLex, ranks]
  rfl

theorem otherRoles_rising (pages : List Page) :
    (otherRoles pages).Pairwise fun entry other => roleOrder entry.1 other.1 = .lt := by
  have names : (otherRoles pages).Pairwise fun entry other => compare entry.1 other.1 = .lt := by
    rw [otherRoles]
    exact List.pairwise_map.mpr (Text.rising_mergeSort compare _)
  refine names.imp_of_mem fun {entry other} here there before => ?_
  have same : rank entry.1 = rank other.1 := by
    rw [rank_other (mem_otherRoles here).1, rank_other (mem_otherRoles there).1]
  have equal : compareOn rank entry.1 other.1 = .eq := Nat.compare_eq_eq.mpr same
  rw [roleOrder, compareLex, equal, before]
  rfl

theorem roles_rising (pages : List Page) :
    (roles pages).Pairwise fun role other => roleOrder role other = .lt := by
  rw [roles, List.map_append, List.pairwise_append]
  refine ⟨?_, ?_, ?_⟩
  · have ranks : (order.map Prod.fst).Pairwise fun role other => rank role < rank other := by
      decide +kernel
    exact ranks.imp roleOrder_lt_of_rank
  · exact List.pairwise_map.mpr (otherRoles_rising pages)
  · intro role placed other absent
    obtain ⟨entry, listed, rfl⟩ := List.mem_map.mp placed
    obtain ⟨entry', other, rfl⟩ := List.mem_map.mp absent
    refine roleOrder_lt_of_rank ?_
    rw [rank_other (mem_otherRoles other).1]
    exact List.findIdx_lt_length_of_exists ⟨entry, listed, beq_self_eq_true _⟩

theorem roleOrder_ne {one other : String} (before : roleOrder one other = .lt) : one ≠ other := by
  rintro rfl
  have same : roleOrder one one = .eq := by
    rw [roleOrder, compareLex_eq_eq]
    exact ⟨Std.ReflCmp.compare_self, Std.ReflCmp.compare_self⟩
  rw [same] at before
  cases before

end Roles

section Members

theorem mem_ofRole : p ∈ ofRole pages role ↔ p ∈ pages ∧ p.role = role := by
  rw [ofRole, List.mem_mergeSort, List.mem_filter, beq_iff_eq]

/-- The pages of each role, one role after the other, are all pages. The induction takes the pages
of the first role away, so the pages vary. -/
theorem flatMap_ofRole_perm {roles : List String} (once : roles.Nodup)
    (covers : ∀ p ∈ pages, p.role ∈ roles) : (roles.flatMap (ofRole pages)).Perm pages := by
  induction roles generalizing pages with
  | nil =>
      have none : pages = [] := List.eq_nil_iff_forall_not_mem.mpr fun p member =>
        List.not_mem_nil (covers p member)
      rw [none]
      exact .nil
  | cons role roles ih =>
      obtain ⟨new, once⟩ := List.nodup_cons.mp once
      let others := pages.filter fun p => !(p.role == role)
      have rest : (roles.flatMap (ofRole others)).Perm others := ih once fun p member => by
        obtain ⟨listed, different⟩ := List.mem_filter.mp member
        exact (List.mem_cons.mp (covers p listed)).resolve_left (by simpa using different)
      have same : roles.flatMap (ofRole pages) = roles.flatMap (ofRole others) := by
        refine List.flatMap_congr fun later member => ?_
        rw [ofRole, ofRole, List.filter_filter]
        refine congrArg (List.mergeSort · le) (List.filter_congr fun p _ => ?_)
        by_cases here : p.role = later
        · have apart : later ≠ role := fun same => new (same ▸ member)
          simp [here, apart]
        · simp [here]
      rw [List.flatMap_cons, same]
      exact ((List.mergeSort_perm _ _).append rest).trans (List.filter_append_perm _ pages)

theorem sorted_ofRole (once : (pages.map Page.address).Nodup) (role : String) :
    (ofRole pages role).Pairwise fun p q => pageOrder p q = .lt := by
  have apart : (ofRole pages role).Pairwise fun p q => p.address ≠ q.address := by
    have some : ((pages.filter fun p => p.role == role).map Page.address).Nodup :=
      once.sublist (List.filter_sublist.map _)
    exact List.pairwise_map.mp (((List.mergeSort_perm _ le).map _).nodup_iff.mpr some)
  have sorted : (ofRole pages role).Pairwise fun p q => (pageOrder p q).isLE = true :=
    List.pairwise_mergeSort (fun _ _ _ => Std.TransCmp.isLE_trans) isLE_total _
  refine apart.imp₂ (fun p q apart sorted => ?_) sorted
  refine (Ordering.isLE_iff_eq_lt_or_eq_eq.mp sorted).resolve_right fun same => ?_
  exact apart (Std.LawfulEqOrd.eq_of_compare (compareLex_eq_eq.mp same).2)

theorem parts_perm (pages : List Page) : ((parts pages).flatMap Prod.snd).Perm pages := by
  have nodup : (roles pages).Nodup := (roles_rising pages).imp roleOrder_ne
  have all : ((roles pages).flatMap (ofRole pages)).Perm pages :=
    flatMap_ofRole_perm nodup fun p => role_mem_roles
  have lists : (parts pages).map Prod.snd =
      ((roles pages).map (ofRole pages)).filter fun members => !members.isEmpty := by
    rw [parts, List.filter_map, List.filter_map, List.map_map]
    rfl
  rwa [List.flatMap_def, lists, List.flatten_filter_not_isEmpty, ← List.flatMap_def]

theorem parts_part (once : (pages.map Page.address).Nodup) : Parts pages (parts pages) where
  perm := parts_perm pages
  ofRole := by
    intro part member p inside
    obtain ⟨role, _, rfl⟩ := List.mem_map.mp (List.mem_filter.mp member).1
    exact (mem_ofRole.mp inside).2
  filled := by
    intro part member
    simpa using (List.mem_filter.mp member).2
  rising := (List.pairwise_map.mpr (roles_rising pages)).filter _
  sorted := by
    intro part member
    obtain ⟨role, _, rfl⟩ := List.mem_map.mp (List.mem_filter.mp member).1
    exact sorted_ofRole once role

end Members

section Groups

variable {members : List Page} {title : String}

theorem groups_eq (pages : List Page) :
    groups pages = (parts pages).map fun part => (heading part.1, part.2) := by
  rw [groups, parts, roles, List.map_map, List.filter_map, List.filter_map, List.map_map]
  refine List.map_congr_left fun entry member => ?_
  have titled := heading_eq (List.mem_filter.mp member).1
  exact Prod.ext titled.symm rfl

theorem groups_perm (pages : List Page) : ((groups pages).flatMap Prod.snd).Perm pages := by
  rw [groups_eq, List.flatMap_map]
  exact parts_perm pages

theorem mem_groups (group : (title, members) ∈ groups pages) (member : p ∈ members) : p ∈ pages :=
  (groups_perm pages).mem_iff.mp (List.mem_flatMap.mpr ⟨_, group, member⟩)

theorem exists_group (member : p ∈ pages) : ∃ group ∈ groups pages, p ∈ group.2 :=
  List.mem_flatMap.mp ((groups_perm pages).mem_iff.mpr member)

end Groups

end Curation

end Concordance
