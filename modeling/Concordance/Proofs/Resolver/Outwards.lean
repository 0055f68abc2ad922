import Mathlib
import Concordance.Proofs.Atlas.Representation
import Concordance.Proofs.Resolver.Session

/-! # Looking further out

A relative link that fits nothing below its page is looked up as if it stood on the
page that holds it. The page shows in nothing else than where the link is looked up:
the first call of a resolver gives what the link leads to, whatever the bundles are
called that it may ask. Until a call stores its outcome, nothing but the answer to
the same link can be stored under its key.
-/

namespace Concordance

namespace Atlas

variable {a : Atlas} {page : Page} {above : Address}

theorem WellFormed.lineage_below (wf : a.WellFormed) (member : page ∈ a.pageList)
    (parent : page.parent = some above) :
    a.lineage page.address = page.address :: a.lineage above := by
  have found := wf.get?_address member
  obtain ⟨holder, there⟩ := Option.isSome_iff_exists.mp (wf.held found parent)
  have path := wf.child_path ((wf.below above page.address).mpr ⟨page, found, parent⟩)
  rw [lineage, lineage, lineageWithin_eq wf found _ (Nat.le_succ _),
    lineageWithin_eq wf there _ (Nat.le_succ _),
    Address.prefixes_below path (wf.path_ne_nil there) (wf.beside found there)]

end Atlas

namespace Resolver

variable {r : Resolver} {link : WrittenLink} {referrer : Option Address} {outcome : Resolution}
  {marks : List CacheKey} {n : Nat} {m : Memory} {result : Resolution × Memory}

/-- What fits nothing below a page is looked up from the page above it. -/
theorem lookupLocally_outwards (wf : r.atlas.WellFormed) (relative : link.absolute = false)
    {page : Page} (member : page ∈ r.atlas.pageList) {above : Address}
    (parent : page.parent = some above)
    (absent : r.atlas.lookup (some page.address) link.components = .notFound) :
    r.lookupLocally link (some page.address) = r.lookupLocally link (some above) := by
  have scopes : r.scopes link (some page.address) =
      some page.address :: r.scopes link (some above) := by
    simp only [Resolver.scopes, relative, wf.lineage_below member parent]
    rfl
  simp only [lookupLocally, scopes, lookupWithin, absent]

section First

/-- All marks are on the keys of links that stand on pages. -/
def Standing (r : Resolver) (marks : List CacheKey) : Prop :=
  ∀ mark ∈ marks, ∃ (first : WrittenLink) (page : Address),
    first.Parsed ∧ mark = r.key first (some page)

theorem Standing.cons (standing : r.Standing marks) (parsed : link.Parsed) (page : Address) :
    r.Standing (r.key link (some page) :: marks) := by
  intro mark member
  rcases List.mem_cons.mp member with rfl | member
  · exact ⟨link, page, parsed, rfl⟩
  · exact standing mark member

theorem Standing.unmarked (standing : r.Standing marks) (parsed : link.Parsed)
    (fresh : r.key link referrer ∉ marks) (bundle : String) :
    ⟨bundle, link.text, none⟩ ∉ marks := by
  intro member
  obtain ⟨first, page, parsed', same⟩ := standing _ member
  obtain ⟨_, text, scope⟩ := CacheKey.mk.inj same
  obtain rfl := parsed'.eq_of_text parsed text.symm
  -- The link is then one of those whose page does not matter, so its own key is marked.
  have anywhere : r.key first referrer = r.key first (some page) := by
    simp only [key, CacheKey.mk.injEq, true_and] at scope ⊢
    split at scope
    · rename_i free
      simp only [free, if_true]
    · cases scope
  rw [anywhere, ← same] at fresh
  exact fresh member

/-- With nothing known, a link that arrives at no page that forwards gives what it leads to, and
leaves at most a bundle's answer. -/
theorem decide_first (empty : ∀ k, m.cache.find? k = none) (page : link.isUrl = false)
    (last : r.stub? link referrer = none) (follow : Follow) :
    (r.decide follow link referrer m).1 = r.direct link referrer ∧
      ∀ k stored, (r.decide follow link referrer m).2.cache.find? k = some stored →
        stored = r.direct link referrer ∧ ∃ bundle, k = ⟨bundle, link.text, none⟩ := by
  rcases decide_cases page last with direct | ⟨responder, place, _, _, answer, asked⟩
  · rw [direct]
    refine ⟨rfl, fun k stored known => ?_⟩
    rw [empty k] at known
    cases known
  · rw [asked, answer]
    simp only [Memory.ask, Cache.getOrInsert_outcome, Cache.find?_getOrInsert, empty,
      Option.getD_none]
    refine ⟨trivial, fun k stored known => ?_⟩
    split at known
    · rename_i same
      cases known
      exact ⟨rfl, responder.bundle, same⟩
    · cases known

theorem settle_fst (m : Memory) (key : CacheKey) (outcome : Resolution) :
    (m.settle key outcome).1 = (m.cache.find? key).getD outcome :=
  m.cache.insert_fst key outcome

theorem settle_other (m : Memory) {key k : CacheKey} (other : k ≠ key) (outcome : Resolution) :
    (m.settle key outcome).2.cache.find? k = m.cache.find? k := by
  change (m.cache.insert key outcome).2.find? k = m.cache.find? k
  rw [Cache.find?_insert, if_neg other]

/-- A call for which nothing is known gives what its link leads to, and leaves nothing under the
keys of the calls that wait for it. -/
theorem Runs.first (readable : r.Readable) (runs : r.Runs n link referrer m result)
    (parsed : link.Parsed) (stands : referrer.isSome = true) (empty : ∀ k, m.cache.find? k = none)
    (marked : r.Marked m.cache.inFlight link referrer) (standing : r.Standing m.cache.inFlight) :
    r.Right link referrer result.1 ∧
      ∀ mark ∈ m.cache.inFlight, result.2.cache.find? mark = none := by
  induction runs with
  | web url => exact ⟨.inl (.web url), fun mark _ => empty mark⟩
  | known page stored =>
      obtain ⟨found, _, _⟩ := Cache.of_get stored
      rw [empty] at found
      cases found
  | @marked _ link referrer m cache page missed refused =>
      obtain ⟨_, same, flight⟩ := Cache.of_get missed
      have waits := Cache.begin?_eq_none refused
      rw [flight] at waits
      exact ⟨.inr ⟨marked.endless parsed waits, link.text, rfl⟩,
        fun mark _ => (same mark).trans (empty mark)⟩
  | @ends _ link referrer m m' outcome cache begun page missed started last decided =>
      obtain ⟨fresh, same, _⟩ := Cache.of_begin? missed started
      have given := decide_first (m := { m with cache := begun })
        (fun k => (same k).trans (empty k)) page last fun _ _ m => (.ok default, m)
      rw [decided] at given
      obtain ⟨rfl, left⟩ := given
      -- All that can be stored by now is a bundle's answer, under this link's text and no page.
      constructor
      · have kept : (m'.cache.find? (r.key link referrer)).getD (r.direct link referrer) =
            r.direct link referrer := by
          cases stored : m'.cache.find? (r.key link referrer) with
          | none => rfl
          | some known => exact (left _ known stored).1
        rw [settle_fst, kept]
        exact .inl (.ends last)
      · intro mark member
        have other : mark ≠ r.key link referrer := fun same => fresh (same ▸ member)
        rw [settle_other m' other]
        cases stored : m'.cache.find? mark with
        | none => rfl
        | some known =>
            obtain ⟨_, bundle, rfl⟩ := left mark known stored
            exact absurd member (standing.unmarked parsed fresh bundle)
  | @forwards _ link target referrer m m' stub outcome cache begun page missed started arrived rest
      ih =>
      obtain ⟨fresh, same, flight⟩ := Cache.of_begin? missed started
      obtain ⟨_, _, title, content⟩ := stub?_lookup arrived
      obtain ⟨here, rfl⟩ := Option.isSome_iff_exists.mp stands
      obtain ⟨right, unknown⟩ := ih (readable stub (stub?_mem arrived) title target content) rfl
        (fun k => (same k).trans (empty k)) (flight ▸ marked.forwards parsed arrived)
        (flight ▸ standing.cons parsed here)
      have own := unknown (r.key link (some here)) (flight ▸ List.mem_cons_self)
      refine ⟨?_, fun mark member => ?_⟩
      · rw [settle_fst, own]
        exact right.forwards arrived
      · have other : mark ≠ r.key link (some here) := fun same => fresh (same ▸ member)
        rw [settle_other m' other]
        exact unknown mark (flight ▸ List.mem_cons_of_mem _ member)

theorem resolve_first (made : r.atlas.Made) (parsed : link.Parsed) (page : Address) :
    r.Right link (some page.page) (r.resolve link (some page) {}).1 :=
  have runs := resolveWithin_runs (m := {}) (r.enough_depth (r.key link (some page.page)) [])
  (runs.first (readable_of_made made) parsed rfl (fun _ => rfl) Marked.nil nofun).1

end First

/-- A relative link that fits nothing below its page is resolved as if it stood on the page that
holds its page. -/
theorem resolve_outwards (made : r.atlas.Made) (parsed : link.Parsed)
    (relative : link.absolute = false) {page : Page} (member : page ∈ r.atlas.pageList)
    {above : Address} (parent : page.parent = some above)
    (absent : r.atlas.lookup (some page.address) link.components = .notFound) :
    Agree (r.resolve link (some page.address) {}).1 (r.resolve link (some above) {}).1 := by
  have wf := made.wellFormed
  have found := wf.get?_address member
  obtain ⟨holder, there⟩ := Option.isSome_iff_exists.mp (wf.held found parent)
  have here := resolve_first made parsed page.address
  have outside := resolve_first made parsed above
  rw [wf.page_self found] at here
  rw [wf.page_self there] at outside
  have same := lookupLocally_outwards wf relative member parent absent
  exact (right_of_lookup same here).agree outside

theorem resolve_outwards_part :
    let inputs : Inputs := { symbolGraphs := [⟨"Kit.symbols.json", {
      module := "Kit"
      symbols := [{
        language := "swift", precise := "s:Part", kindName := "Class"
        kindIdentifier := "swift.class", title := "Part", path := ["Part"] }] }⟩] }
    let r : Resolver := {
      atlas := (Atlas.build {} inputs).1
      responders := [External.responder { bundle := "com.example.documentation" }] }
    let part : Address := { bundle := "com.example.documentation", path := ["Kit", "Part"] }
    let kit : Address := { bundle := "com.example.documentation", path := ["Kit"] }
    let link : WrittenLink := ⟨false, none, ["Part"], none, "Part", .symbol⟩
    Agree (r.resolve link (some part) {}).1 (r.resolve link (some kit) {}).1 ∧
      (r.resolve link (some kit) {}).1 = .ok part := by
  intro inputs r part kit link
  have there : (r.atlas.pages.get? part).any (fun n => n.parent == some kit) = true := by
    decide +kernel +revert
  have absent : r.atlas.lookup (some part) link.components = .notFound := by decide +kernel +revert
  have given : (r.resolve link (some kit) {}).1 = .ok part := by decide +kernel +revert
  have made : r.atlas.Made := .built {} inputs
  have parsed : link.Parsed := ⟨"Part", by decide⟩
  obtain ⟨n, found, parent⟩ := (Option.any_eq_true _ _).mp there
  have own := made.wellFormed.own found
  have nothing : r.atlas.lookup (some n.address) link.components = .notFound := by
    rw [own]
    exact absent
  have outwards := resolve_outwards made parsed rfl (Atlas.mem_pageList found)
    (by simpa using parent) nothing
  rw [own] at outwards
  exact ⟨outwards, given⟩

end Resolver

end Concordance
