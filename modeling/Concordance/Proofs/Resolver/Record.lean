import Mathlib
import Concordance.Proofs.Resolver.Success

/-! # What is on record

A page of another bundle is known to a build once its bundle was asked for it. Answers
are remembered together with the question, and whatever outcome comes of an answer is
remembered after it, so a link that is resolved leads to a page that is known, whether
it was resolved now or before.
-/

namespace Concordance.Resolver

variable {r : Resolver} {link : WrittenLink} {referrer : Option Address} {m m' : Memory}
  {outcome : Resolution} {address target : Address} {inquiries later : List Inquiry}

/-- A bundle was asked for a page, and answered with it or with a heading on it. -/
def Asked (r : Resolver) (inquiries : List Inquiry) (address : Address) : Prop :=
  ∃ link responder place answer, r.claimant? link = some (responder, place) ∧
    ⟨place, link⟩ ∈ inquiries ∧ responder.answer link = .ok answer ∧ answer.page = address.page

/-- An address in this bundle, or one that its bundle was asked for. -/
def Known (r : Resolver) (inquiries : List Inquiry) (address : Address) : Prop :=
  address.bundle = r.atlas.bundle ∨ r.Asked inquiries address

theorem Asked.mono (asked : r.Asked inquiries address) (more : inquiries ⊆ later) :
    r.Asked later address := by
  obtain ⟨link, responder, place, answer, claimed, asked, rest⟩ := asked
  exact ⟨link, responder, place, answer, claimed, more asked, rest⟩

theorem Asked.of_page (asked : r.Asked inquiries target) (same : address.page = target.page) :
    r.Asked inquiries address := by
  obtain ⟨link, responder, place, answer, claimed, asked, answered, page⟩ := asked
  exact ⟨link, responder, place, answer, claimed, asked, answered, page.trans same.symm⟩

theorem Known.mono (known : r.Known inquiries address) (more : inquiries ⊆ later) :
    r.Known later address :=
  known.imp_right fun asked => asked.mono more

theorem Known.of_page (known : r.Known inquiries target) (same : address.page = target.page) :
    r.Known inquiries address :=
  known.imp (congrArg Address.bundle same).trans fun asked => asked.of_page same

/-- What is remembered of other bundles is on record. -/
structure Recorded (r : Resolver) (m : Memory) : Prop where
  /-- The addresses that links were found to lead to. -/
  here : ∀ {text : String} {scope : Option Address} {address : Address},
    m.cache.find? ⟨r.atlas.bundle, text, scope⟩ = some (.ok address) → r.Known m.inquiries address
  /-- The answers of other bundles. -/
  elsewhere : ∀ {link : WrittenLink} {responder : Responder} {place : Nat} {outcome : Resolution},
    link.Parsed → r.claimant? link = some (responder, place) →
    m.cache.find? ⟨responder.bundle, link.text, none⟩ = some outcome →
    outcome = responder.answer link ∧ ⟨place, link⟩ ∈ m.inquiries

theorem Recorded.empty : r.Recorded {} where
  here stored := by cases stored
  elsewhere _ _ stored := by cases stored

theorem Recorded.of_find? (recorded : r.Recorded m) (same : ∀ k, m'.cache.find? k = m.cache.find? k)
    (inquiries : m'.inquiries = m.inquiries) : r.Recorded m' where
  here stored := inquiries ▸ recorded.here (same _ ▸ stored)
  elsewhere parsed claimed stored := inquiries ▸ recorded.elsewhere parsed claimed (same _ ▸ stored)

theorem Recorded.get (recorded : r.Recorded m) {key : CacheKey} {found : Option Resolution}
    {cache : Cache} (got : m.cache.get key = (found, cache)) : r.Recorded { m with cache } :=
  recorded.of_find? (Cache.of_get got).2.1 rfl

theorem Recorded.begin (recorded : r.Recorded m) {key : CacheKey} {cache begun : Cache}
    (missed : m.cache.get key = (none, cache)) (started : cache.begin? key = some begun) :
    r.Recorded { m with cache := begun } :=
  recorded.of_find? (Cache.of_begin? missed started).2.1 rfl

/-- What comes of an outcome that a call gives: the record grows, and has what the outcome needs. -/
structure Grown (r : Resolver) (before : List Inquiry) (outcome : Resolution) (m : Memory) : Prop where
  recorded : r.Recorded m
  more : before ⊆ m.inquiries
  known : ∀ address, outcome = .ok address → r.Known m.inquiries address

theorem Recorded.failed (recorded : r.Recorded m) (failure : Failure) :
    r.Grown m.inquiries (.error failure) m where
  recorded := recorded
  more := List.Subset.refl _
  known _ success := by cases success

theorem Grown.settle (grown : r.Grown inquiries outcome m') (apart : r.Apart) (link : WrittenLink)
    (referrer : Option Address) :
    r.Grown inquiries (m'.settle (r.key link referrer) outcome).1
      (m'.settle (r.key link referrer) outcome).2 := by
  have kept (address : Address)
      (stored : (m'.cache.find? (r.key link referrer)).getD outcome = .ok address) :
      r.Known m'.inquiries address := by
    cases before : m'.cache.find? (r.key link referrer) with
    | none =>
        rw [before] at stored
        exact grown.known address stored
    | some known =>
        rw [before] at stored
        exact grown.recorded.here (before.trans (congrArg some stored))
  have found (k : CacheKey) :
      (m'.settle (r.key link referrer) outcome).2.cache.find? k =
        if k = r.key link referrer then some ((m'.cache.find? (r.key link referrer)).getD outcome)
        else m'.cache.find? k :=
    Cache.find?_insert _ _ _ k
  refine ⟨⟨fun {text scope address} stored => ?_, fun parsed claimed stored => ?_⟩, grown.more,
    fun address success => ?_⟩
  · rw [found] at stored
    split at stored
    · exact kept address (Option.some.inj stored)
    · exact grown.recorded.here stored
  · rw [found, if_neg] at stored
    · exact grown.recorded.elsewhere parsed claimed stored
    · intro same
      exact apart.claimant claimed (congrArg CacheKey.bundle same)
  · refine kept address ?_
    rw [← Cache.insert_fst]
    exact success

theorem Recorded.ask (recorded : r.Recorded m) (apart : r.Apart) (parsed : link.Parsed)
    {responder : Responder} {place : Nat} (claimed : r.claimant? link = some (responder, place)) :
    r.Grown m.inquiries (m.ask responder place link).1 (m.ask responder place link).2 := by
  have more : m.inquiries ⊆ (m.ask responder place link).2.inquiries := by
    simp only [Memory.ask]
    split
    · exact List.subset_cons_self _ _
    · exact List.Subset.refl _
  have asked : (m.cache.find? ⟨responder.bundle, link.text, none⟩).getD (responder.answer link) =
        responder.answer link ∧ ⟨place, link⟩ ∈ (m.ask responder place link).2.inquiries := by
    cases stored : m.cache.find? ⟨responder.bundle, link.text, none⟩ with
    | none =>
        refine ⟨rfl, ?_⟩
        simp [Memory.ask, Cache.getOrInsert_made, stored]
    | some answer =>
        obtain ⟨same, member⟩ := recorded.elsewhere parsed claimed stored
        exact ⟨same, more member⟩
  obtain ⟨answered, asked⟩ := asked
  have found (k : CacheKey) : (m.ask responder place link).2.cache.find? k =
      if k = ⟨responder.bundle, link.text, none⟩ then some (responder.answer link)
      else m.cache.find? k :=
    answered ▸ Cache.find?_getOrInsert _ _ _ k
  refine ⟨⟨fun stored => ?_, fun {other responder' place' _} parsed' claimed' stored => ?_⟩, more,
    fun address success => ?_⟩
  · rw [found, if_neg] at stored
    · exact (recorded.here stored).mono more
    · intro same
      exact apart.claimant claimed (congrArg CacheKey.bundle same).symm
  · rw [found] at stored
    split at stored
    · rename_i same
      obtain rfl := parsed'.eq_of_text parsed (congrArg CacheKey.text same)
      rw [claimed] at claimed'
      cases claimed'
      exact ⟨(Option.some.inj stored).symm, asked⟩
    · obtain ⟨same, member⟩ := recorded.elsewhere parsed' claimed' stored
      exact ⟨same, more member⟩
  · have answer : responder.answer link = .ok address := by
      rw [← answered, ← Cache.getOrInsert_outcome]
      exact success
    exact .inr ⟨link, responder, place, address, claimed, asked, answer, rfl⟩

theorem Recorded.decide_ends (recorded : r.Recorded m) (made : r.atlas.Made) (apart : r.Apart)
    (parsed : link.Parsed) (notUrl : link.isUrl = false) (last : r.stub? link referrer = none)
    (follow : Follow) :
    r.Grown m.inquiries (r.decide follow link referrer m).1 (r.decide follow link referrer m).2 := by
  simp only [stub?, notUrl, Bool.false_eq_true, if_false] at last
  simp only [decide]
  cases found : r.lookupLocally link referrer with
  | found page =>
      have there := made.wellFormed.get?_address (lookupLocally_mem found)
      have own : page.address.bundle = r.atlas.bundle :=
        congrArg Address.bundle (made.wellFormed.address_path (Option.isSome_of_eq_some there)).symm
      have plain : page.address.page = page.address := made.wellFormed.page_self there
      simp only [found] at last
      simp only [arrive]
      split
      · rename_i content
        rw [content] at last
        cases last
      · refine ⟨recorded, List.Subset.refl _, fun address success => .inl ?_⟩
        rw [← plain] at success
        rw [(withFragment_ok success).1, WrittenLink.carry_bundle, own]
  | ambiguous candidates => exact recorded.failed _
  | notFound =>
      cases claimed : r.claimant? link with
      | none => exact recorded.failed _
      | some claimant => exact recorded.ask apart parsed claimed

theorem Grown.pass (grown : r.Grown inquiries outcome m') (link : WrittenLink) :
    r.Grown inquiries (r.pass link outcome) m' := by
  refine ⟨grown.recorded, grown.more, fun address success => ?_⟩
  cases outcome with
  | error failure => cases success
  | ok target =>
      refine (grown.known target rfl).of_page ?_
      rw [(withFragment_ok success).1, WrittenLink.carry_page]

/-- However a call goes, the record grows. The induction is on the calls nested in it. -/
theorem Runs.grown {n : Nat} {result : Resolution × Memory} (runs : r.Runs n link referrer m result)
    (made : r.atlas.Made) (apart : r.Apart) (parsed : link.Parsed) (recorded : r.Recorded m) :
    r.Grown m.inquiries result.1 result.2 := by
  induction runs with
  | web url => exact recorded.failed _
  | @known n link referrer m outcome cache page stored =>
      obtain ⟨found, _⟩ := Cache.of_get stored
      refine ⟨recorded.get stored, List.Subset.refl _, fun address success => ?_⟩
      exact recorded.here (found.trans (congrArg some success))
  | @marked n link referrer m cache page missed refused =>
      exact (recorded.get missed).failed _
  | @ends n link referrer m m' outcome cache begun page missed started last decided =>
      have grown := (recorded.begin missed started).decide_ends made apart parsed page last
        fun _ _ m => (.ok default, m)
      rw [decided] at grown
      exact grown.settle apart link referrer
  | @forwards n link target referrer m m' stub outcome cache begun page missed started arrived
      rest ih =>
      obtain ⟨_, _, title, content⟩ := stub?_lookup arrived
      have nested := ih (readable_of_made made stub (stub?_mem arrived) title target content)
        (recorded.begin missed started)
      exact (nested.pass link).settle apart link referrer

end Concordance.Resolver
