import Mathlib
import Concordance.Resolver.Basic
import Concordance.Proofs.Atlas.Lookup
import Concordance.Proofs.Link.Parsed

/-! # Where links lead

What resolving amounts to without any memory: a link leads through the pages that
forward, one after the other, until it ends at something that does not forward, or
it goes on forever. Since pages are finitely many, going on forever is coming back
to a page.
-/

namespace Concordance.Resolver

variable {r : Resolver} {link target : WrittenLink} {referrer : Option Address} {page : Page}
  {outcome other : Resolution}

/-- The page that forwards which a link arrives at, with the link to go on with. -/
def stub? (r : Resolver) (link : WrittenLink) (referrer : Option Address) :
    Option (Page × WrittenLink) :=
  if link.isUrl then none
  else match r.lookupLocally link referrer with
    | .found page =>
        match page.content with
        | .redirect _ target => some (page, target)
        | _ => none
    | _ => none

/-- What a link gives that arrives at no page that forwards. -/
def direct (r : Resolver) (link : WrittenLink) (referrer : Option Address) : Resolution :=
  if link.isUrl then .error (urlFailure link)
  else match r.lookupLocally link referrer with
    | .found page => r.withFragment link page.address
    | .ambiguous candidates => .error (.ambiguous link.text candidates)
    | .notFound =>
        match r.claimant? link with
        | some (responder, _) => responder.answer link
        | none => .error (r.notFound link)

/-- What a link gives that arrives at a page that forwards, by what its target gives. -/
def pass (r : Resolver) (link : WrittenLink) : Resolution → Resolution
  | .ok address => r.withFragment link address.page
  | .error failure => .error failure

/-- What a link leads to in the end. -/
inductive Leads (r : Resolver) : WrittenLink → Option Address → Resolution → Prop where
  | ends {link : WrittenLink} {referrer : Option Address} (last : r.stub? link referrer = none) :
      Leads r link referrer (r.direct link referrer)
  | forwards {link target : WrittenLink} {referrer : Option Address} {page : Page}
      {outcome : Resolution} (stub : r.stub? link referrer = some (page, target))
      (rest : Leads r target (some page.address) outcome) :
      Leads r link referrer (r.pass link outcome)

/-- The pages that forward on a link's way, by their places on it. -/
def trail (r : Resolver) : Nat → WrittenLink → Option Address → Option Page
  | 0, link, referrer => (r.stub? link referrer).map Prod.fst
  | n + 1, link, referrer =>
      match r.stub? link referrer with
      | some (page, target) => trail r n target (some page.address)
      | none => none

def Endless (r : Resolver) (link : WrittenLink) (referrer : Option Address) : Prop :=
  ∀ n, (r.trail n link referrer).isSome = true

/-- The link's way comes back to a page that forwards. -/
def Returns (r : Resolver) (link : WrittenLink) (referrer : Option Address) : Prop :=
  ∃ i j page, i < j ∧ r.trail i link referrer = some page ∧ r.trail j link referrer = some page

/-- What resolving a link may give: what it leads to, or a failure that says the link's resolution
depends on itself, if it is forwarded without end. -/
def Right (r : Resolver) (link : WrittenLink) (referrer : Option Address) (outcome : Resolution) :
    Prop :=
  r.Leads link referrer outcome ∨
    r.Endless link referrer ∧ ∃ text, outcome = .error (.cyclic text)

theorem Leads.web (url : link.isUrl = true) : r.Leads link referrer (.error (urlFailure link)) := by
  have last : r.stub? link referrer = none := by simp [stub?, url]
  have failure : r.direct link referrer = .error (urlFailure link) := by simp [direct, url]
  rw [← failure]
  exact .ends last

section Lookup

variable {one two : Option Address}

theorem stub?_of_lookup (same : r.lookupLocally link one = r.lookupLocally link two) :
    r.stub? link one = r.stub? link two := by
  simp only [stub?, same]

theorem trail_of_lookup (same : r.lookupLocally link one = r.lookupLocally link two) (n : Nat) :
    r.trail n link one = r.trail n link two := by
  cases n <;> simp only [trail, stub?_of_lookup same]

theorem leads_of_lookup (same : r.lookupLocally link one = r.lookupLocally link two)
    (leads : r.Leads link one outcome) : r.Leads link two outcome := by
  cases leads with
  | ends last =>
      have direct : r.direct link one = r.direct link two := by simp only [Resolver.direct, same]
      rw [direct]
      exact .ends ((stub?_of_lookup same).symm.trans last)
  | forwards stub rest => exact .forwards ((stub?_of_lookup same).symm.trans stub) rest

theorem right_of_lookup (same : r.lookupLocally link one = r.lookupLocally link two)
    (right : r.Right link one outcome) : r.Right link two outcome := by
  rcases right with leads | ⟨endless, cyclic⟩
  · exact .inl (leads_of_lookup same leads)
  · refine .inr ⟨fun n => ?_, cyclic⟩
    rw [← trail_of_lookup same]
    exact endless n

end Lookup

section Scope

theorem lookupLocally_scope (parsed : link.Parsed) (referrer : Option Address) :
    r.lookupLocally link (r.key link referrer).scope = r.lookupLocally link referrer := by
  cases absolute : link.absolute with
  | true =>
      have same : r.scopes link (r.key link referrer).scope = r.scopes link referrer := by
        simp only [scopes, key, absolute, Bool.true_or, if_true]
        cases referrer <;> rfl
      simp only [lookupLocally, same]
  | false =>
      have unnamed : link.bundle.isSome = false := by
        cases named : link.bundle.isSome with
        | false => rfl
        | true => rw [parsed.absolute named] at absolute; cases absolute
      simp [key, absolute, unnamed]

theorem stub?_scope (parsed : link.Parsed) (referrer : Option Address) :
    r.stub? link (r.key link referrer).scope = r.stub? link referrer :=
  stub?_of_lookup (lookupLocally_scope parsed referrer)

theorem trail_scope (parsed : link.Parsed) (referrer : Option Address) (n : Nat) :
    r.trail n link (r.key link referrer).scope = r.trail n link referrer :=
  trail_of_lookup (lookupLocally_scope parsed referrer) n

theorem right_scope (parsed : link.Parsed) :
    r.Right link (r.key link referrer).scope outcome ↔ r.Right link referrer outcome :=
  ⟨right_of_lookup (lookupLocally_scope parsed referrer),
    right_of_lookup (lookupLocally_scope parsed referrer).symm⟩

end Scope

section Way

theorem lookupWithin_mem {components : List String} {scopes : List (Option Address)}
    (found : r.lookupWithin components scopes = .found page) : page ∈ r.atlas.pageList := by
  induction scopes with
  | nil => cases found
  | cons scope scopes ih =>
      rw [lookupWithin] at found
      split at found
      · exact ih found
      · obtain ⟨address, _, present⟩ := Atlas.lookup_found.mp found
        exact Atlas.mem_pageList present

theorem lookupLocally_mem (found : r.lookupLocally link referrer = .found page) :
    page ∈ r.atlas.pageList := by
  rw [lookupLocally] at found
  split at found
  · exact lookupWithin_mem found
  · cases found

theorem stub?_lookup (stub : r.stub? link referrer = some (page, target)) :
    link.isUrl = false ∧ r.lookupLocally link referrer = .found page ∧
      ∃ title, page.content = .redirect title target := by
  simp only [stub?] at stub
  split at stub
  · cases stub
  · rename_i notUrl
    split at stub
    · rename_i found
      split at stub
      · rename_i title _ content
        cases stub
        exact ⟨by simpa using notUrl, found, title, content⟩
      · cases stub
    · cases stub

theorem stub?_mem (stub : r.stub? link referrer = some (page, target)) :
    page ∈ r.atlas.pageList :=
  lookupLocally_mem (stub?_lookup stub).2.1

theorem trail_succ (stub : r.stub? link referrer = some (page, target)) (n : Nat) :
    r.trail (n + 1) link referrer = r.trail n target (some page.address) := by
  simp only [trail, stub]

theorem endless_of_stub (stub : r.stub? link referrer = some (page, target))
    (endless : r.Endless target (some page.address)) : r.Endless link referrer := by
  intro n
  cases n with
  | zero => simp [trail, stub]
  | succ n =>
      rw [trail_succ stub]
      exact endless n

theorem Right.forwards (stub : r.stub? link referrer = some (page, target))
    (right : r.Right target (some page.address) outcome) :
    r.Right link referrer (r.pass link outcome) := by
  rcases right with leads | ⟨endless, text, cyclic⟩
  · exact .inl (.forwards stub leads)
  · subst cyclic
    exact .inr ⟨endless_of_stub stub endless, text, rfl⟩

theorem Leads.unique (first : r.Leads link referrer outcome) (second : r.Leads link referrer other) :
    outcome = other := by
  induction first generalizing other with
  | ends last =>
      cases second with
      | ends _ => rfl
      | forwards stub _ => rw [last] at stub; cases stub
  | forwards stub _ ih =>
      cases second with
      | ends last => rw [last] at stub; cases stub
      | forwards stub' rest =>
          rw [stub] at stub'
          cases stub'
          rw [ih rest]

theorem Leads.not_endless (leads : r.Leads link referrer outcome) : ¬ r.Endless link referrer := by
  induction leads with
  | ends last =>
      intro endless
      have first := endless 0
      simp [trail, last] at first
  | forwards stub _ ih =>
      intro endless
      apply ih
      intro n
      rw [← trail_succ stub]
      exact endless (n + 1)

/-- Outcomes that differ at most in how they report a resolution that depends on itself. -/
def Agree (a b : Resolution) : Prop :=
  a = b ∨ ∃ s t, a = .error (.cyclic s) ∧ b = .error (.cyclic t)

theorem Right.agree (first : r.Right link referrer outcome) (second : r.Right link referrer other) :
    Agree outcome other := by
  rcases first with leads | ⟨endless, text, cyclic⟩
  · rcases second with leads' | ⟨endless, _⟩
    · exact .inl (leads.unique leads')
    · exact absurd endless leads.not_endless
  · rcases second with leads | ⟨_, text', cyclic'⟩
    · exact absurd endless leads.not_endless
    · exact .inr ⟨text, text', cyclic, cyclic'⟩

end Way

section Return

theorem trail_page {n : Nat} (there : r.trail n link referrer = some page) :
    ∃ title target, page.content = .redirect title target ∧
      ∀ m, r.trail (n + 1 + m) link referrer = r.trail m target (some page.address) := by
  induction n generalizing link referrer with
  | zero =>
      obtain ⟨⟨p, target⟩, stub, same⟩ := Option.map_eq_some_iff.mp there
      cases same
      obtain ⟨_, _, title, content⟩ := stub?_lookup stub
      refine ⟨title, target, content, fun m => ?_⟩
      rw [Nat.zero_add, Nat.add_comm, trail_succ stub]
  | succ n ih =>
      rw [trail] at there
      split at there
      · rename_i p target stub
        obtain ⟨title, target', content, on⟩ := ih there
        refine ⟨title, target', content, fun m => ?_⟩
        rw [show n + 1 + 1 + m = n + 1 + m + 1 by omega, trail_succ stub]
        exact on m
      · cases there

theorem trail_isSome_of_le {m n : Nat} (before : m ≤ n)
    (there : (r.trail n link referrer).isSome = true) :
    (r.trail m link referrer).isSome = true := by
  induction m generalizing n link referrer with
  | zero =>
      cases n with
      | zero => exact there
      | succ n =>
          rw [trail] at there
          split at there
          · rename_i stub
            simp [trail, stub]
          · cases there
  | succ m ih =>
      cases n with
      | zero => omega
      | succ n =>
          rw [trail] at there ⊢
          split at there
          · exact ih (Nat.le_of_succ_le_succ before) there
          · cases there

theorem endless_of_return {i j : Nat} (later : i < j) (first : r.trail i link referrer = some page)
    (second : r.trail j link referrer = some page) : r.Endless link referrer := by
  obtain ⟨_, target, content, on⟩ := trail_page first
  obtain ⟨_, target', content', on'⟩ := trail_page second
  have same : target' = target := by
    rw [content] at content'
    cases content'
    rfl
  subst same
  intro n
  induction n using Nat.strongRecOn with
  | ind n ih =>
      by_cases near : n ≤ j
      · exact trail_isSome_of_le near (by rw [second]; rfl)
      · -- Past the second arrival the way is what it was past the first.
        have back := on' (n - (j + 1))
        rw [← on (n - (j + 1)), show j + 1 + (n - (j + 1)) = n by omega] at back
        rw [back]
        exact ih _ (by omega)

theorem trail_mem {n : Nat} (there : r.trail n link referrer = some page) :
    page ∈ r.atlas.pageList := by
  induction n generalizing link referrer with
  | zero =>
      obtain ⟨⟨p, target⟩, stub, same⟩ := Option.map_eq_some_iff.mp there
      cases same
      exact stub?_mem stub
  | succ n ih =>
      rw [trail] at there
      split at there
      · exact ih there
      · cases there

/-- A link is forwarded without end exactly if its way comes back to a page. -/
theorem endless_iff_returns : r.Endless link referrer ↔ r.Returns link referrer := by
  constructor
  · intro endless
    let visited (n : Nat) : { page // page ∈ r.atlas.pageList } :=
      ⟨(r.trail n link referrer).get (endless n), trail_mem (Option.some_get _).symm⟩
    obtain ⟨i, j, different, same⟩ := Finite.exists_ne_map_eq_of_infinite visited
    have arrive (n : Nat) : r.trail n link referrer = some (visited n).1 := (Option.some_get _).symm
    rcases Nat.lt_or_gt_of_ne different with later | later
    · exact ⟨i, j, _, later, arrive i, by rw [same]; exact arrive j⟩
    · exact ⟨j, i, _, later, arrive j, by rw [← same]; exact arrive i⟩
  · rintro ⟨i, j, page, later, first, second⟩
    exact endless_of_return later first second

end Return

end Concordance.Resolver
