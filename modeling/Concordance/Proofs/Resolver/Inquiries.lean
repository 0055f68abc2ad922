import Mathlib
import Concordance.Proofs.Resolver.Run

/-! # Questions to other bundles

Whatever links are resolved one after the other, a bundle is asked for a text at most
once, since its answer stays under a key that names no page. The bundle asked is the
first that the link is for, and it is asked only where nothing here can fit the link.
-/

namespace Concordance

/-- The first that a link is for: it claims the link, and none before it does. -/
structure Responders.First (rs : Responders) (link : WrittenLink) (responder : Responder)
    (place : Nat) : Prop where
  registered : rs[place]? = some responder
  claims : responder.claims link = true
  earlier : ∀ i < place, ∀ other, rs[i]? = some other → other.claims link = false

theorem Responders.claimant?_first {rs : Responders} {link : WrittenLink} {responder : Responder}
    {place : Nat} (claimed : rs.claimant? link = some (responder, place)) :
    rs.First link responder place := by
  obtain ⟨claims, i, less, here, before⟩ := List.find?_eq_some_iff_getElem.mp claimed
  rw [List.getElem_zipIdx, Nat.zero_add] at here
  cases here
  refine ⟨List.getElem?_eq_getElem _, claims, fun j earlier other there => ?_⟩
  have passed := before j earlier
  rw [List.getElem_zipIdx, (List.getElem?_eq_some_iff.mp there).2] at passed
  simpa using passed

namespace Resolver

variable {r : Resolver} {link target : WrittenLink} {referrer : Option Address} {m m' : Memory}
  {posed : WrittenLink → Option Address → Prop}

/-- Resolving links one after the other, each as it stands on a page. -/
def session (r : Resolver) (calls : List (WrittenLink × Option Address)) : Memory :=
  calls.foldl (fun m call => (r.resolve call.1 call.2 m).2) {}

/-- The link is resolved as one of a page: in a call, or because a page forwards to it. -/
def Posed (r : Resolver) (calls : List (WrittenLink × Option Address)) (link : WrittenLink)
    (referrer : Option Address) : Prop :=
  ∃ call ∈ calls, ∃ n, r.Way n call.1 (call.2.map Address.page) link referrer

/-- Nothing here can fit the link of a page: it names another bundle, or it starts with no module
of this one and fits nothing wherever it is looked up. -/
def Foreign (r : Resolver) (link : WrittenLink) (referrer : Option Address) : Prop :=
  r.isLocal link = false ∨
    r.startsElsewhere link = true ∧
      ∀ scope ∈ r.scopes link referrer, r.atlas.lookup scope link.components = .notFound

def asks (r : Resolver) (bundle text : String) (q : Inquiry) : Bool :=
  r.responders[q.place]?.any (·.bundle == bundle) && q.link.text == text

theorem lookupWithin_notFound {components : List String} {scopes : List (Option Address)} :
    r.lookupWithin components scopes = .notFound ↔
      ∀ scope ∈ scopes, r.atlas.lookup scope components = .notFound := by
  induction scopes with
  | nil => simp [lookupWithin]
  | cons scope scopes ih =>
      rw [lookupWithin, List.forall_mem_cons]
      split
      · rename_i none
        rw [ih]
        exact (and_iff_right none).symm
      · rename_i some
        exact iff_of_false some fun all => some all.1

/-- A link is put to a bundle only if nothing here can fit it, and to the first that it is for. -/
theorem foreign_of_claimant? {responder : Responder} {place : Nat}
    (nowhere : r.lookupLocally link referrer = .notFound)
    (claimed : r.claimant? link = some (responder, place)) :
    r.responders.First link responder place ∧ r.Foreign link referrer := by
  rw [claimant?] at claimed
  split at claimed
  · rename_i elsewhere
    refine ⟨Responders.claimant?_first claimed, ?_⟩
    cases inside : r.isLocal link with
    | false => exact .inl inside
    | true =>
        rw [lookupLocally, if_pos inside] at nowhere
        rw [inside] at elsewhere
        exact .inr ⟨by simpa using elsewhere, lookupWithin_notFound.mp nowhere⟩
  · cases claimed

/-- Questions as they are to be, and answers that are kept. -/
structure Disciplined (r : Resolver) (posed : WrittenLink → Option Address → Prop) (m : Memory) :
    Prop where
  /-- No bundle was asked twice for a text. -/
  once : ∀ bundle text, m.inquiries.countP (r.asks bundle text) ≤ 1
  /-- The outcome of every question is stored. -/
  stored : ∀ bundle text, (∃ q ∈ m.inquiries, r.asks bundle text q = true) →
    (m.cache.find? ⟨bundle, text, none⟩).isSome = true
  /-- Every question has its grounds. -/
  grounds : ∀ q ∈ m.inquiries, ∃ responder referrer, r.responders.First q.link responder q.place ∧
    posed q.link referrer ∧ r.Foreign q.link referrer

theorem Disciplined.empty : r.Disciplined posed {} where
  once _ _ := Nat.zero_le 1
  stored _ _ asked := by simp at asked
  grounds _ member := absurd member List.not_mem_nil

theorem Disciplined.keep (kept : r.Disciplined posed m) (same : m'.inquiries = m.inquiries)
    (more : ∀ key, (m.cache.find? key).isSome = true → (m'.cache.find? key).isSome = true) :
    r.Disciplined posed m' where
  once := same ▸ kept.once
  stored bundle text asked := more _ (kept.stored bundle text (same ▸ asked))
  grounds := same ▸ kept.grounds

theorem Disciplined.settle (kept : r.Disciplined posed m) (key : CacheKey) (outcome : Resolution) :
    r.Disciplined posed (m.settle key outcome).2 := by
  refine kept.keep rfl fun k known => ?_
  have found : (m.settle key outcome).2.cache.find? k =
      if k = key then some ((m.cache.find? key).getD outcome) else m.cache.find? k :=
    Cache.find?_insert _ _ _ k
  rw [found]
  split
  · rfl
  · exact known

theorem Disciplined.ask (kept : r.Disciplined posed m) {responder : Responder} {place : Nat}
    (here : posed link referrer) (first : r.responders.First link responder place)
    (foreign : r.Foreign link referrer) :
    r.Disciplined posed (m.ask responder place link).2 := by
  have found (key : CacheKey) : (m.ask responder place link).2.cache.find? key =
      if key = ⟨responder.bundle, link.text, none⟩ then
        some ((m.cache.find? ⟨responder.bundle, link.text, none⟩).getD (responder.answer link))
      else m.cache.find? key :=
    Cache.find?_getOrInsert _ _ _ key
  have more (key : CacheKey) (known : (m.cache.find? key).isSome = true) :
      ((m.ask responder place link).2.cache.find? key).isSome = true := by
    rw [found]
    split
    · rfl
    · exact known
  cases before : m.cache.find? ⟨responder.bundle, link.text, none⟩ with
  | some answer =>
      refine kept.keep ?_ more
      simp [Memory.ask, Cache.getOrInsert_made, before]
  | none =>
      have asked : (m.ask responder place link).2.inquiries = ⟨place, link⟩ :: m.inquiries := by
        simp [Memory.ask, Cache.getOrInsert_made, before]
      have own (bundle text : String) : r.asks bundle text ⟨place, link⟩ = true ↔
          responder.bundle = bundle ∧ link.text = text := by
        simp [asks, first.registered]
      refine ⟨fun bundle text => ?_, fun bundle text => ?_, fun q member => ?_⟩
      · rw [asked, List.countP_cons]
        split
        · -- What is asked for now was not asked for before, or its outcome would be stored.
          rename_i now
          obtain ⟨rfl, rfl⟩ := (own bundle text).mp now
          have new : m.inquiries.countP (r.asks responder.bundle link.text) = 0 := by
            rw [List.countP_eq_zero]
            intro q member same
            have known := kept.stored _ _ ⟨q, member, same⟩
            rw [before] at known
            cases known
          rw [new]
        · exact kept.once bundle text
      · rw [asked]
        rintro ⟨q, member, same⟩
        rcases List.mem_cons.mp member with rfl | member
        · obtain ⟨rfl, rfl⟩ := (own bundle text).mp same
          rw [found, if_pos rfl]
          rfl
        · exact more _ (kept.stored bundle text ⟨q, member, same⟩)
      · rw [asked] at member
        rcases List.mem_cons.mp member with rfl | member
        · exact ⟨responder, referrer, first, here, foreign⟩
        · exact kept.grounds q member

theorem Disciplined.decide (kept : r.Disciplined posed m) (here : posed link referrer)
    (notUrl : link.isUrl = false) {follow : Follow}
    (followed : ∀ {page : Page} {target : WrittenLink},
      r.stub? link referrer = some (page, target) →
        r.Disciplined posed (follow target (some page.address) m).2) :
    r.Disciplined posed (r.decide follow link referrer m).2 := by
  cases stub : r.stub? link referrer with
  | some arrived =>
      obtain ⟨page, target⟩ := arrived
      rw [decide_forwards stub]
      exact followed stub
  | none =>
      rcases decide_cases notUrl stub with direct | ⟨responder, place, found, claimed, _, asked⟩
      · rw [direct]
        exact kept
      · rw [asked]
        obtain ⟨first, foreign⟩ := foreign_of_claimant? found claimed
        exact kept.ask here first foreign

/-- A call keeps the discipline. The induction is on how deep calls may be nested. -/
theorem Disciplined.resolveWithin
    (forwarded : ∀ {link target : WrittenLink} {referrer : Option Address} {page : Page},
      posed link referrer → r.stub? link referrer = some (page, target) →
        posed target (some page.address))
    {depth : Nat} (kept : r.Disciplined posed m) (here : posed link referrer) :
    r.Disciplined posed (r.resolveWithin depth link referrer m).2 := by
  induction depth generalizing link referrer m with
  | zero => exact kept
  | succ depth ih =>
      rw [Resolver.resolveWithin]
      cases notUrl : link.isUrl with
      | true => exact kept
      | false =>
          have same := m.cache.find?_get (r.key link referrer)
          rcases got : m.cache.get (r.key link referrer) with ⟨answer, cache⟩
          simp only [got] at same
          have looked : r.Disciplined posed { m with cache } :=
            kept.keep rfl fun key known => (same key).symm ▸ known
          simp only [Bool.false_eq_true, if_false, got]
          cases answer with
          | some outcome => exact looked
          | none =>
              cases started : cache.begin? (r.key link referrer) with
              | none =>
                  simp only [started]
                  exact looked
              | some begun =>
                  simp only [started]
                  obtain ⟨_, rfl⟩ := Cache.begin?_eq_some started
                  have begun : r.Disciplined posed { m with
                      cache := { cache with inFlight := r.key link referrer :: cache.inFlight } } :=
                    looked.keep rfl fun _ known => known
                  exact (begun.decide here notUrl fun stub =>
                    ih begun (forwarded here stub)).settle _ _

theorem session_disciplined (r : Resolver) (calls : List (WrittenLink × Option Address)) :
    r.Disciplined (r.Posed calls) (r.session calls) := by
  have forwarded {link target : WrittenLink} {referrer : Option Address} {page : Page} :
      r.Posed calls link referrer → r.stub? link referrer = some (page, target) →
        r.Posed calls target (some page.address) := by
    rintro ⟨call, member, n, way⟩ stub
    exact ⟨call, member, n + 1, way.forwards stub⟩
  exact List.foldlRecOn (motive := r.Disciplined (r.Posed calls)) calls _ .empty
    fun _ kept call member => kept.resolveWithin forwarded ⟨call, member, 0, .here⟩

/-- In a session without forgetting, no bundle is asked twice for a text, whatever pages the links
stand on. Each question goes to the first that its link is for, and is asked for a page where
nothing here can fit the link. -/
theorem session_inquiries (r : Resolver) (calls : List (WrittenLink × Option Address)) :
    (∀ bundle text, (r.session calls).inquiries.countP (r.asks bundle text) ≤ 1) ∧
      ∀ q ∈ (r.session calls).inquiries, ∃ responder referrer,
        r.responders.First q.link responder q.place ∧ r.Posed calls q.link referrer ∧
          r.Foreign q.link referrer :=
  ⟨(session_disciplined r calls).once, (session_disciplined r calls).grounds⟩

example :
    let r : Resolver := {
      atlas := { bundle := "com.example.here" }
      responders := [External.responder { bundle := "com.example.there", modules := ["Other"] }] }
    let link : WrittenLink := ⟨false, none, ["Other"], none, "Other", .symbol⟩
    let page (name : String) : Address := { bundle := "com.example.here", path := [name] }
    (r.session [(link, page "One"), (link, none), (link, page "Two")]).inquiries = [⟨0, link⟩] := by
  decide

end Resolver

end Concordance
