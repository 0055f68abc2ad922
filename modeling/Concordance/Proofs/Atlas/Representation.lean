import Mathlib
import Concordance.Proofs.Atlas.Indexes
import Concordance.Renderer.Basic

/-! # What an atlas that was built looks like

Pages, roots, pages below pages, human paths, unique identifiers and relations all
agree with each other, and the way from a page up to its module goes through the
prefixes of its path.
-/

namespace Concordance

/-- The addresses of the proper prefixes of the path, the longest first. -/
def Address.prefixes (address : Address) : List Address :=
  address.path.inits.tail.dropLast.reverse.map fun path => { address with path }

theorem Address.prefixes_single {address : Address} {component : String}
    (path : address.path = [component]) : address.prefixes = [] := by
  simp [prefixes, path]

theorem Address.prefixes_below {address above : Address} {component : String}
    (path : address.path = above.path ++ [component]) (some : above.path ≠ [])
    (beside : { address with path := above.path } = above) :
    address.prefixes = above :: above.prefixes := by
  obtain ⟨first, last, whole⟩ : ∃ first last, above.path = first ++ [last] :=
    ⟨_, _, (List.dropLast_append_getLast some).symm⟩
  have longer (l : List String) (x : String) : (l ++ [x]).inits = l.inits ++ [l ++ [x]] := by simp
  have nonempty : first.inits ≠ [] := by
    cases first <;> simp
  have own : above.path.inits.tail = first.inits.tail ++ [above.path] := by
    rw [whole, longer, List.tail_append_of_ne_nil nonempty]
  have all : address.path.inits.tail = first.inits.tail ++ [above.path] ++ [address.path] := by
    rw [path, longer, List.tail_append_of_ne_nil (by simp [whole]), own]
  rw [prefixes, prefixes, all, own, List.dropLast_concat, List.dropLast_concat,
    List.reverse_append, List.reverse_singleton, List.singleton_append, List.map_cons, beside]
  congr 1
  apply List.map_congr_left
  intro path _
  rw [← beside]

namespace Atlas

variable {a : Atlas} {address above : Address} {page : Page}

theorem WellFormed.beside (wf : a.WellFormed) {other : Page}
    (found : a.pages.get? address = some page) (there : a.pages.get? above = some other) :
    { address with path := above.path } = above := by
  rw [← wf.address_path (Option.isSome_of_eq_some found)]
  exact wf.address_path (Option.isSome_of_eq_some there)

theorem lineageWithin_eq (wf : a.WellFormed) (found : a.pages.get? address = some page) (bound : Nat)
    (enough : address.path.length ≤ bound) :
    a.lineageWithin bound address = address :: address.prefixes := by
  induction bound generalizing address page with
  | zero =>
      have none := List.eq_nil_of_length_eq_zero (Nat.le_zero.mp enough)
      exact absurd none (wf.path_ne_nil found)
  | succ bound ih =>
      have plain := wf.page_self found
      cases parent : page.parent with
      | none =>
          have root := wf.root_path ((wf.roots address).mpr ⟨page, found, parent⟩)
          simp [lineageWithin, page?, plain, found, parent, Address.prefixes_single root]
      | some above =>
          have path := wf.child_path ((wf.below above address).mpr ⟨page, found, parent⟩)
          obtain ⟨holder, there⟩ := Option.isSome_iff_exists.mp (wf.held found parent)
          have shorter : above.path.length ≤ bound := by
            rw [path, List.length_append, List.length_singleton] at enough
            omega
          rw [Address.prefixes_below path (wf.path_ne_nil there) (wf.beside found there)]
          simp only [lineageWithin, page?, plain, found, Option.bind_some, parent, ih there shorter]

theorem lineageWithin_held (wf : a.WellFormed) (found : a.pages.get? address = some page)
    (bound : Nat) : ∀ k ∈ a.lineageWithin bound address, a.pages.has k = true := by
  induction bound generalizing address page with
  | zero =>
      intro k member
      cases member
  | succ bound ih =>
      intro k member
      rcases List.mem_cons.mp member with rfl | member
      · exact Option.isSome_of_eq_some found
      · simp only [page?, wf.page_self found, found, Option.bind_some] at member
        cases parent : page.parent with
        | none =>
            rw [parent] at member
            cases member
        | some above =>
            rw [parent] at member
            obtain ⟨holder, there⟩ := Option.isSome_iff_exists.mp (wf.held found parent)
            exact ih there k member

theorem map_address_pages (wf : a.WellFormed) (l : List Address)
    (held : ∀ k ∈ l, a.pages.has k = true) : (l.filterMap a.page?).map Page.address = l := by
  induction l with
  | nil => rfl
  | cons k l ih =>
      obtain ⟨page, found⟩ := Option.isSome_iff_exists.mp (held k List.mem_cons_self)
      have here : a.page? k = some page := by rw [page?, wf.page_self found, found]
      rw [List.filterMap_cons_some here, List.map_cons, wf.own found,
        ih fun k member => held k (List.mem_cons_of_mem _ member)]

theorem ancestors_eq (wf : a.WellFormed) (found : a.pages.get? address = some page) (r : Renderer)
    (same : r.atlas = a) : (r.ancestors page).map Page.address = address.prefixes.reverse := by
  subst same
  rw [Renderer.ancestors]
  cases parent : page.parent with
  | none =>
      have root := wf.root_path ((wf.roots address).mpr ⟨page, found, parent⟩)
      simp [Address.prefixes_single root]
  | some above =>
      have path := wf.child_path ((wf.below above address).mpr ⟨page, found, parent⟩)
      obtain ⟨holder, there⟩ := Option.isSome_iff_exists.mp (wf.held found parent)
      have way : r.atlas.lineage above = address.prefixes := by
        rw [Address.prefixes_below path (wf.path_ne_nil there) (wf.beside found there)]
        exact lineageWithin_eq wf there _ (Nat.le_succ _)
      have held (k : Address) (member : k ∈ address.prefixes.reverse) :
          r.atlas.pages.has k = true :=
        lineageWithin_held wf there _ k (way.symm ▸ List.mem_reverse.mp member)
      simp only [way]
      exact map_address_pages wf _ held

/-- An atlas whose pages and indexes represent one tree. -/
structure Represented (a : Atlas) : Prop where
  /-- No index entry is without a page. -/
  consistent : a.dangling = []
  /-- Every page stands under its own address, in the bundle and without a fragment. -/
  own : ∀ {address page}, (address, page) ∈ a.pages →
    page.address = address ∧ address.bundle = a.bundle ∧ address.fragment = none
  /-- The pages that no page holds are those that are roots, once, and whose paths are of one
  component. -/
  root : ∀ {address page}, (address, page) ∈ a.pages →
    (page.parent = none ↔ a.roots.count address = 1 ∧ address.path.length = 1)
  /-- Any other page stands once below just one page, the one whose path lacks the last component. -/
  child : ∀ {address page above}, (address, page) ∈ a.pages → page.parent = some above →
    (∃ holder, (above, holder) ∈ a.pages) ∧ above.path = address.path.dropLast ∧
      (a.children above).count address = 1 ∧ (a.below.flatMap Prod.snd).count address = 1
  /-- Every page stands once among human paths, under its own. -/
  named : ∀ {address page}, (address, page) ∈ a.pages →
    ((a.byHumanPath.get? page.humanText).getD []).count address = 1 ∧
      (a.byHumanPath.flatMap Prod.snd).count address = 1
  /-- A unique identifier stands for a page that shows the symbol of this identifier. -/
  precise : ∀ {precise address}, (precise, address) ∈ a.byPrecise →
    ∃ page content, (address, page) ∈ a.pages ∧ page.content = .symbol content ∧
      content.precise = precise
  /-- The page of a symbol is found under the unique identifier. -/
  symbols : ∀ {address page}, (address, page) ∈ a.pages → page.kind = .symbol →
    ∃ content, page.content = .symbol content ∧ a.byPrecise.get? content.precise = some address
  /-- A relation that leads to an address leads to a page. -/
  related : ∀ {address page content}, (address, page) ∈ a.pages → page.content = .symbol content →
    ∀ relation ∈ content.relations, ∀ target, relation.target.destination = .resolved target →
      ∃ other, (target, other) ∈ a.pages
  /-- The way up from a page ends by itself, and leads through the prefixes of its path. -/
  lineage : ∀ {address page}, (address, page) ∈ a.pages →
    ∀ bound, address.path.length ≤ bound →
      a.lineageWithin bound address = address :: address.prefixes
  /-- So it does when the page is shown, from the module down. -/
  ancestors : ∀ {address page}, (address, page) ∈ a.pages →
    ∀ r : Renderer, r.atlas = a → (r.ancestors page).map Page.address = address.prefixes.reverse

theorem WellFormed.represented (wf : a.WellFormed) (ix : a.Indexed) : a.Represented := by
  have found {address : Address} {page : Page} (entry : (address, page) ∈ a.pages) :
      a.pages.get? address = some page := wf.rising.get?_eq_some_iff.mpr entry
  refine ⟨dangling_eq_nil wf ix, ?_, ?_, ?_, ?_, ?_, ?_, ?_, ?_, ?_⟩
  · intro address page entry
    rw [← wf.address_path (Option.isSome_of_eq_some (found entry))]
    exact ⟨(wf.own (found entry)).trans
      (wf.address_path (Option.isSome_of_eq_some (found entry))).symm, rfl, rfl⟩
  · intro address page entry
    constructor
    · intro none
      have root := (wf.roots address).mpr ⟨page, found entry, none⟩
      exact ⟨List.count_eq_one_of_mem ix.roots_nodup root, by rw [wf.root_path root]; rfl⟩
    · rintro ⟨once, _⟩
      have root : address ∈ a.roots := List.count_pos_iff.mp (once ▸ Nat.one_pos)
      obtain ⟨other, there, none⟩ := (wf.roots address).mp root
      rw [found entry] at there
      cases there
      exact none
  · intro address page above entry parent
    have listed := (wf.below above address).mpr ⟨page, found entry, parent⟩
    obtain ⟨holder, there⟩ := Option.isSome_iff_exists.mp (wf.held (found entry) parent)
    obtain ⟨once, alone⟩ := ix.below_rising.count_eq_one ix.below_nodup listed
    refine ⟨⟨holder, Assoc.mem_of_get? there⟩, ?_, once, alone⟩
    rw [wf.child_path listed, List.dropLast_concat]
  · intro address page entry
    exact ix.named_rising.count_eq_one ix.named_nodup (ix.named (found entry))
  · intro precise address entry
    obtain ⟨page, there, same⟩ := ix.precise (ix.precise_rising.get?_eq_some_iff.mpr entry)
    obtain ⟨content, shown, same⟩ := Option.map_eq_some_iff.mp same
    exact ⟨page, content, Assoc.mem_of_get? there, Content.symbol?_eq_some.mp shown, same⟩
  · intro address page entry kind
    obtain ⟨precise, same, listed⟩ := ix.symbols (found entry) kind
    obtain ⟨content, shown, rfl⟩ := Option.map_eq_some_iff.mp same
    exact ⟨content, Content.symbol?_eq_some.mp shown, listed⟩
  · intro address page content entry shown relation member target resolved
    have held := ix.related (found entry) shown ⟨relation, member, resolved⟩
    obtain ⟨other, there⟩ := Option.isSome_iff_exists.mp held
    exact ⟨other, Assoc.mem_of_get? there⟩
  · intro address page entry bound enough
    exact lineageWithin_eq wf (found entry) bound enough
  · intro address page entry r same
    exact ancestors_eq wf (found entry) r same

/-- Every atlas that is built from settings and inputs represents one tree. -/
theorem build_represented (settings : Settings) (inputs : Inputs) :
    (build settings inputs).1.Represented :=
  (build_wellFormed settings inputs).represented (build_indexed settings inputs)

end Atlas

end Concordance
