import Mathlib
import Concordance.Proofs.Atlas.Steps
import Concordance.Proofs.Markup.Traversal
import Concordance.Proofs.Resolver.Run

/-! # Sessions of the resolver

Whatever was resolved before, links one by one or pages at a time, the memory is
sound and no mark is left. So earlier calls do not show in later outcomes, and a
link fails as one that depends on itself exactly if its way comes back to a page.
-/

namespace Concordance

/-- The links of a page that are still to be resolved were read. -/
def Content.Written (content : Content) : Prop :=
  ∀ l ∈ content.links, ∀ link, l.destination = .unresolved link → link.Parsed

namespace Resolver

variable {r : Resolver} {link : WrittenLink} {referrer : Option Address} {m : Memory}
  {outcome : Resolution}

/-- The memories that earlier calls can leave. -/
inductive Reached (r : Resolver) : Memory → Prop where
  | start : Reached r {}
  | link {m : Memory} {link : WrittenLink} (before : Reached r m) (parsed : link.Parsed)
      (referrer : Option Address) : Reached r (r.resolve link referrer m).2
  | page {m : Memory} {content : Content} (before : Reached r m) (written : content.Written)
      (referrer : Address) : Reached r (r.resolveContent referrer content m).2.memory
  | clear {m : Memory} (before : Reached r m) : Reached r { m with cache := m.cache.clear }

theorem apart_of_built {settings : Settings} {inputs : Inputs}
    (built : r.atlas = (Atlas.build settings inputs).1)
    (different : ∀ responder ∈ r.responders, responder.bundle ≠ settings.bundle) : r.Apart := by
  intro responder member
  rw [built, (Atlas.build_steps settings inputs).bundle]
  exact different responder member

/-- Between calls the memory is sound, and nothing is marked. -/
structure Settled (r : Resolver) (m : Memory) : Prop where
  sound : r.Sound m.cache
  unmarked : m.cache.inFlight = []

theorem readable_of_made (made : r.atlas.Made) : r.Readable :=
  fun _ member _ _ content => made.wellFormed.targets (made.wellFormed.get?_address member) content

theorem Settled.meets (settled : r.Settled m) (made : r.atlas.Made) (apart : r.Apart)
    (parsed : link.Parsed) (referrer : Option Address) :
    r.Meets r.depth link (referrer.map Address.page) m (r.resolve link referrer m) :=
  resolveWithin_meets apart (readable_of_made made) parsed settled.sound
    (settled.unmarked ▸ Marked.nil) (r.enough_depth _ _)

theorem Settled.resolve (settled : r.Settled m) (made : r.atlas.Made) (apart : r.Apart)
    (parsed : link.Parsed) (referrer : Option Address) :
    r.Settled (r.resolve link referrer m).2 where
  sound := (settled.meets made apart parsed referrer).sound
  unmarked := (settled.meets made apart parsed referrer).marks.trans settled.unmarked

/-- Where a link leads that was resolved with an outcome. -/
def destination : Resolution → Destination
  | .ok address => .resolved address
  | .error failure => .failed failure

/-- The failures that an outcome adds to those of a page. -/
def failures : Resolution → List Failure
  | .ok _ => []
  | .error failure => [failure]

theorem resolveLink_cases (r : Resolver) (referrer : Address) (l : Link) :
    (∃ link, l.destination = .unresolved link ∧ ∀ s : Progress, (r.resolveLink referrer l).run s =
      ({ l with destination := destination (r.resolve link (some referrer) s.memory).1 },
        { memory := (r.resolve link (some referrer) s.memory).2
          failures := s.failures ++ failures (r.resolve link (some referrer) s.memory).1 })) ∨
    ∃ found : Link,
      (∀ address, found.destination = .resolved address → l.destination = .resolved address) ∧
      ∀ s, (r.resolveLink referrer l).run s = (found, s) := by
  rw [resolveLink]
  split
  · rename_i link unresolved
    cases notUrl : link.isUrl with
    | true =>
        refine .inr
          ⟨{ l with destination := .url link.text }, fun _ same => (nomatch same), fun s => ?_⟩
        simp only [StateT.run, if_true]
    | false =>
        refine .inl ⟨link, unresolved, fun s => ?_⟩
        simp only [StateT.run, Bool.false_eq_true, if_false]
        rcases r.resolve link (some referrer) s.memory with ⟨address | failure, memory⟩
        · rfl
        · simp [destination, failures]
  · exact .inr ⟨l, fun _ same => same, fun _ => rfl⟩

theorem resolveLink_keeps (made : r.atlas.Made) (apart : r.Apart) (referrer : Address) {l : Link}
    (written : ∀ link, l.destination = .unresolved link → link.Parsed) :
    Keeps (fun progress => r.Settled progress.memory) (r.resolveLink referrer l) := by
  intro progress settled
  rcases r.resolveLink_cases referrer l with ⟨link, unresolved, run⟩ | ⟨found, _, run⟩
  · rw [run]
    exact settled.resolve made apart (written link unresolved) (some referrer)
  · rw [run]
    exact settled

theorem Settled.resolveContent (settled : r.Settled m) (made : r.atlas.Made) (apart : r.Apart)
    {content : Content} (written : content.Written) (referrer : Address) :
    r.Settled (r.resolveContent referrer content m).2.memory :=
  Content.traverseLinks_keeps
    (fun l member => resolveLink_keeps made apart referrer (written l member)) _ settled

theorem Reached.settled (reached : r.Reached m) (made : r.atlas.Made) (apart : r.Apart) :
    r.Settled m := by
  induction reached with
  | start => exact ⟨.empty, rfl⟩
  | link _ parsed referrer ih => exact ih.resolve made apart parsed referrer
  | page _ written referrer ih => exact ih.resolveContent made apart written referrer
  | clear _ ih => exact ⟨Sound.empty.of_find? fun _ => rfl, ih.unmarked⟩

/-- What is read from the roots or names a bundle is resolved alike wherever it stands. -/
theorem resolve_anywhere (parsed : link.Parsed)
    (free : link.absolute = true ∨ link.bundle.isSome = true) (one other : Option Address)
    (m : Memory) : r.resolve link one m = r.resolve link other m := by
  have absolute : link.absolute = true := free.elim id parsed.absolute
  have keys (s t : Option Address) : r.key link s = r.key link t := by simp [key, absolute]
  have lookups (s t : Option Address) : r.lookupLocally link s = r.lookupLocally link t := by
    rw [← lookupLocally_scope parsed s, keys s t, lookupLocally_scope parsed t]
  rw [resolve, resolve, depth, resolveWithin, resolveWithin]
  simp only [decide, keys (one.map Address.page) (other.map Address.page),
    lookups (one.map Address.page) (other.map Address.page)]

/-- Resolving gives what it would give if nothing had been resolved before, but perhaps for the text
of a failure that says the link depends on itself. -/
theorem resolve_transparent (made : r.atlas.Made) (apart : r.Apart) (reached : r.Reached m)
    (parsed : link.Parsed) (referrer : Option Address) :
    Agree (r.resolve link referrer m).1 (r.resolve link referrer {}).1 ∧
      (link.absolute = true ∨ link.bundle.isSome = true →
        ∀ other, r.resolve link other m = r.resolve link referrer m) := by
  have now := (reached.settled made apart).meets made apart parsed referrer
  have fresh := (Reached.start.settled made apart).meets made apart parsed referrer
  exact ⟨now.right.agree fresh.right, fun free other => resolve_anywhere parsed free other referrer m⟩

theorem resolve_transparent_stubs :
    let r : Resolver := {
      atlas := (Atlas.build {} {
        documents := [⟨"A.md", "@Redirect(B)"⟩, ⟨"B.md", "@Redirect(/A)"⟩] }).1
      responders := [External.responder { bundle := "com.example.other", modules := ["Other"] }] }
    let link : WrittenLink := ⟨false, none, ["A"], none, "A", .symbol⟩
    let m := (r.resolve link none {}).2
    Agree (r.resolve link none m).1 (r.resolve link none {}).1 ∧
      (link.absolute = true ∨ link.bundle.isSome = true →
        ∀ other, r.resolve link other m = r.resolve link none m) := by
  intro r link m
  have apart : r.Apart := apart_of_built rfl fun responder member => by
    rw [List.mem_singleton.mp member]
    decide
  have parsed : link.Parsed := ⟨"A", by decide⟩
  exact resolve_transparent (.built _ _) apart (.link .start parsed none) parsed none

section Cycles

/-- An outcome is a failure that says the link depends on itself. -/
def IsCyclic (outcome : Resolution) : Prop :=
  ∃ failure, outcome = .error failure ∧ failure.kind = .cyclic

theorem withFragment_not_cyclic (target : Address) : ¬ IsCyclic (r.withFragment link target) := by
  rintro ⟨failure, failed, kind⟩
  simp only [withFragment] at failed
  split at failed
  · cases failed
  · split_ifs at failed
    cases failed
    cases kind

theorem notFound_kind (r : Resolver) (link : WrittenLink) : (r.notFound link).kind = .unresolved := by
  simp only [notFound]
  split <;> rfl

theorem answer_not_cyclic (e : External) (link : WrittenLink) :
    ¬ IsCyclic (e.answer link) := by
  rintro ⟨failure, failed, kind⟩
  simp only [External.answer] at failed
  split at failed
  · cases failed
  · cases failed
    cases kind

/-- What a link leads to is no such failure, if other bundles give none. -/
theorem Leads.not_cyclic
    (answers : ∀ responder ∈ r.responders, ∀ link, ¬ IsCyclic (responder.answer link))
    (leads : r.Leads link referrer outcome) : ¬ IsCyclic outcome := by
  induction leads with
  | @ends link referrer last =>
      simp only [direct]
      split
      · rintro ⟨failure, failed, kind⟩
        cases failed
        cases kind
      · split
        · exact withFragment_not_cyclic _
        · rintro ⟨failure, failed, kind⟩
          cases failed
          cases kind
        · split
          · rename_i responder place claimed
            exact answers responder (claimant?_mem claimed) link
          · rintro ⟨failure, failed, kind⟩
            cases failed
            rw [notFound_kind] at kind
            cases kind
  | @forwards link target referrer page outcome stub rest ih =>
      cases outcome with
      | ok address => exact withFragment_not_cyclic _
      | error failure => exact ih

theorem Right.cyclic_iff
    (answers : ∀ responder ∈ r.responders, ∀ link, ¬ IsCyclic (responder.answer link))
    (right : r.Right link referrer outcome) :
    IsCyclic outcome ↔ r.Returns link referrer := by
  rw [← endless_iff_returns]
  rcases right with leads | ⟨endless, text, cyclic⟩
  · exact iff_of_false (leads.not_cyclic answers) leads.not_endless
  · exact iff_of_true ⟨_, cyclic, rfl⟩ endless

/-- However pages forward to each other, resolving a link ends: calls are nested no deeper than
there are such pages and two more, the outcome is a failure that says the link depends on itself
exactly if its way comes back to a page, and no mark is left. -/
theorem resolve_cycles (made : r.atlas.Made) (apart : r.Apart) (externals : Externals)
    (others : r.responders = externals.map External.responder) (reached : r.Reached m)
    (parsed : link.Parsed) (referrer : Option Address) :
    r.Runs (r.atlas.pageList.countP (fun p => p.content.isRedirect) + 2) link
        (referrer.map Address.page) m (r.resolve link referrer m) ∧
      (IsCyclic (r.resolve link referrer m).1 ↔ r.Returns link (referrer.map Address.page)) ∧
      (r.resolve link referrer m).2.cache.inFlight = [] := by
  have settled := reached.settled made apart
  have meets := settled.meets made apart parsed referrer
  have answers : ∀ responder ∈ r.responders, ∀ link, ¬ IsCyclic (responder.answer link) := by
    intro responder member link
    rw [others] at member
    obtain ⟨e, _, rfl⟩ := List.mem_map.mp member
    exact answer_not_cyclic e link
  exact ⟨meets.runs, meets.right.cyclic_iff answers, meets.marks.trans settled.unmarked⟩

theorem resolve_cycles_stubs :
    let r : Resolver := {
      atlas := (Atlas.build {} {
        documents := [⟨"A.md", "@Redirect(B)"⟩, ⟨"B.md", "@Redirect(/A)"⟩] }).1
      responders := [External.responder { bundle := "com.example.other", modules := ["Other"] }] }
    let link : WrittenLink := ⟨false, none, ["A"], none, "A", .symbol⟩
    let m := (r.resolve link none {}).2
    r.Runs (r.atlas.pageList.countP (fun p => p.content.isRedirect) + 2) link none m
        (r.resolve link none m) ∧
      (IsCyclic (r.resolve link none m).1 ↔ r.Returns link none) ∧
      (r.resolve link none m).2.cache.inFlight = [] := by
  intro r link m
  have apart : r.Apart := apart_of_built rfl fun responder member => by
    rw [List.mem_singleton.mp member]
    decide
  have parsed : link.Parsed := ⟨"A", by decide⟩
  exact resolve_cycles (.built _ _) apart [{ bundle := "com.example.other", modules := ["Other"] }] rfl
    (.link .start parsed none) parsed none

end Cycles

end Resolver

end Concordance
