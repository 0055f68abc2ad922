import Mathlib
import Concordance.Proofs.Atlas.Distinguished
import Concordance.Proofs.Atlas.Steps
import Concordance.Proofs.Link.Identifier
import Concordance.Proofs.Resolver.Run

/-! # Canonical identities

The identifier of a page, read as a link, is looked up from the roots alone by the
page's own path. It leads to the page exactly if that path distinguishes the page:
suffixes are read back by trying every split at a hyphen, and a page of another
name or kind beside the page may fit such a reading as well, or before it.
-/

namespace Concordance

theorem Atlas.WellFormed.path_cons {a : Atlas} (wf : a.WellFormed) {n : Address} {page : Page}
    (found : a.pages.get? n = some page) :
    ∃ first rest, n.path = first :: rest ∧ a.isLocalModule first = true := by
  refine wf.page_induction (P := fun n => ∃ first rest, n.path = first :: rest ∧
    a.isLocalModule first = true) ?_ ?_ found
  · intro n root
    have single := wf.root_path root
    exact ⟨n.component, [], single, List.any_eq_true.mpr ⟨n, root, by rw [single]; simp⟩⟩
  · intro q n child _ ⟨first, rest, whole, known⟩
    exact ⟨first, rest ++ [n.component], by rw [wf.child_path child, whole]; rfl, known⟩

namespace Resolver

variable {r : Resolver} {link : WrittenLink} {referrer : Option Address}

/-- A fresh resolver gives what the link leads to if nothing is followed or asked. -/
theorem resolve_fresh (notUrl : link.isUrl = false)
    (last : r.stub? link (referrer.map Address.page) = none) (unclaimed : r.claimant? link = none) :
    (r.resolve link referrer {}).1 = r.direct link (referrer.map Address.page) := by
  rcases decide_cases notUrl last with decided | ⟨responder, place, _, claimed, _⟩
  · rw [resolve, depth, resolveWithin]
    simp only [notUrl, Bool.false_eq_true, if_false, decided]
    rfl
  · rw [unclaimed] at claimed
    cases claimed

theorem lookupLocally_identifier {n : Page} (wf : r.atlas.WellFormed)
    (found : r.atlas.pages.get? n.address = some n) (absolute : link.absolute = true)
    (bundle : link.bundle = some n.address.bundle) (path : link.components = n.address.path)
    (referrer : Option Address) :
    r.lookupLocally link referrer = r.atlas.lookup none n.address.path ∧
      r.claimant? link = none := by
  have own : n.address.bundle = r.atlas.bundle := by
    cases wf.placed found with
    | module _ place _ _ | symbol _ _ place _ _ | document _ _ place _ => rw [place]; rfl
  have isLocal : r.isLocal link = true := by simp [isLocal, bundle, own]
  obtain ⟨first, rest, whole, known⟩ := wf.path_cons found
  have starts : r.startsElsewhere link = false := by simp [startsElsewhere, path, whole, known]
  have scopes : r.scopes link referrer = [none] := by
    simp only [scopes, absolute, starts, if_true]
    cases referrer <;> rfl
  constructor
  · simp only [lookupLocally, isLocal, if_true, scopes, lookupWithin, path]
    split <;> simp_all
  · simp [claimant?, isLocal, starts]

/-- The path of a page that is shown leads to no page that forwards: such a page stands nowhere but
under its own path, which is taken. -/
theorem stub?_of_shown {n : Page} (wf : r.atlas.WellFormed)
    (found : r.atlas.pages.get? n.address = some n) (shown : n.content.isRedirect = false)
    (lookup : r.lookupLocally link referrer = r.atlas.lookup none n.address.path) :
    r.stub? link referrer = none := by
  cases stub : r.stub? link referrer with
  | none => rfl
  | some arrived =>
      obtain ⟨page, target⟩ := arrived
      obtain ⟨_, arrives, title, content⟩ := stub?_lookup stub
      rw [lookup] at arrives
      obtain ⟨address, only, there⟩ := Atlas.lookup_found.mp arrives
      have forwards : page.content.isRedirect = true := by
        rw [content]
        rfl
      have alone : page.distinction = none := by
        cases wf.placed there with
        | module _ _ alone _ | document _ _ _ alone => exact alone
        | symbol _ _ _ _ stays => rw [forwards] at stays; cases stays
      have paths := Atlas.path_of_follow wf there alone (only ▸ List.mem_singleton_self address)
      have same : address = n.address := wf.eq_of_path there found paths
      rw [same, found] at there
      cases there
      rw [forwards] at shown
      cases shown

theorem direct_eq_iff {n : Page} (wf : r.atlas.WellFormed)
    (found : r.atlas.pages.get? n.address = some n) (notUrl : link.isUrl = false)
    (fragment : link.fragment = none) (unclaimed : r.claimant? link = none)
    (lookup : r.lookupLocally link referrer = r.atlas.lookup none n.address.path) :
    r.direct link referrer = .ok n.address ↔ r.atlas.lookup none n.address.path = .found n := by
  simp only [direct, notUrl, Bool.false_eq_true, if_false, lookup, unclaimed]
  cases looked : r.atlas.lookup none n.address.path with
  | found page =>
      obtain ⟨address, _, there⟩ := Atlas.lookup_found.mp looked
      simp only [withFragment, fragment, Except.ok.injEq, Lookup.found.injEq]
      constructor
      · intro same
        rw [← wf.own there, same, found] at there
        exact (Option.some.inj there).symm
      · exact congrArg Page.address
  | ambiguous addresses => simp
  | notFound => simp

/-- The identifier of a page that is shown, read as a link to its bundle and path, leads to the page
wherever it stands exactly if the page's path distinguishes it. -/
theorem resolve_identifier (made : r.atlas.Made) {n : Page} (member : n ∈ r.atlas.pageList)
    (shown : n.content.isRedirect = false)
    (read : WrittenLink.parse n.address.identifier = .ok link)
    (bundle : link.bundle = some n.address.bundle) (path : link.components = n.address.path)
    (referrer : Option Address) :
    (r.resolve link referrer {}).1 = .ok n.address ↔ r.atlas.Distinguished n.address := by
  have wf := made.wellFormed
  have found := wf.get?_address member
  have named : link.bundle.isSome = true := by rw [bundle]; rfl
  have parsed : link.Parsed := ⟨_, read⟩
  have whole : n.address.fragment = none := by
    cases wf.placed found with
    | module _ place _ _ | symbol _ _ place _ _ | document _ _ place _ => rw [place]; rfl
  have fragment := Address.identifier_fragment whole read bundle path
  obtain ⟨text, body, made', _⟩ := WrittenLink.parse_named read named
  have notUrl := WrittenLink.ofIdentifierBody_isUrl made'
  obtain ⟨lookup, unclaimed⟩ := lookupLocally_identifier wf found (parsed.absolute named) bundle path
    (referrer.map Address.page)
  have last := stub?_of_shown wf found shown lookup
  rw [resolve_fresh notUrl last unclaimed, direct_eq_iff wf found notUrl fragment unclaimed lookup]
  exact Atlas.lookup_self_iff wf found

/-- The only page below the root page of a module: its plain name distinguishes it, so its identifier
leads to it from wherever it is followed. -/
theorem resolve_identifier_part :
    let inputs : Inputs := { symbolGraphs := [⟨"Kit.symbols.json", {
      module := "Kit"
      symbols := [{
        language := "swift", precise := "s:Part", kindName := "Class"
        kindIdentifier := "swift.class", title := "Part", path := ["Part"] }] }⟩] }
    let r : Resolver := { atlas := (Atlas.build {} inputs).1 }
    let address : Address := { bundle := "com.example.documentation", path := ["Kit", "Part"] }
    let link : WrittenLink := {
      absolute := true, bundle := some "com.example.documentation", components := ["Kit", "Part"]
      fragment := none, text := "doc://com.example.documentation/documentation/Kit/Part"
      form := .topic }
    WrittenLink.parse address.identifier = .ok link ∧ r.atlas.Distinguished address ∧
      ∀ referrer, (r.resolve link referrer {}).1 = .ok address := by
  intro inputs r address link
  let home : Address := { bundle := "com.example.documentation", path := ["Kit"] }
  have there : (r.atlas.pages.get? address).any
      (fun n => !n.content.isRedirect && n.name == address.component) = true := by
    decide +kernel +revert
  have read : WrittenLink.parse address.identifier = .ok link := by decide +kernel +revert
  have root : home ∈ r.atlas.roots := by decide +kernel +revert
  have below : r.atlas.children home = [address] := by decide +kernel +revert
  have made : r.atlas.Made := .built {} inputs
  have wf := made.wellFormed
  obtain ⟨n, found, facts⟩ := (Option.any_eq_true _ _).mp there
  obtain ⟨shown, name⟩ := Bool.and_eq_true_iff.mp facts
  have distinguished : r.atlas.Distinguished address := by
    refine .plain wf (wf.root_distinguished root) (below ▸ List.mem_singleton_self _) found
      (eq_of_beq name) fun m other inside _ _ => ?_
    rw [below] at inside
    exact List.mem_singleton.mp inside
  refine ⟨read, distinguished, fun referrer => ?_⟩
  have own := wf.own found
  rw [← own] at read distinguished ⊢
  exact (resolve_identifier made (Atlas.mem_pageList found) (by simpa using shown) read
    (by rw [own]) (by rw [own]) referrer).mpr distinguished

end Resolver

end Concordance
