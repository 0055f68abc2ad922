import Mathlib
import Concordance.Proofs.Resolver.Memory

/-! # Runs of the resolver

A call with a sound memory gives a right outcome and leaves a sound memory with the
marks it found. The marks are the keys of the calls that wait for this one, so a
call under a mark comes from itself. Each page that forwards is gone through under
a mark of its own, which bounds how deep calls are nested.
-/

namespace Concordance.Resolver

variable {r : Resolver} {link target first last : WrittenLink} {referrer : Option Address}
  {scope : Option Address} {page : Page} {outcome : Resolution} {marks : List CacheKey}

section Marks

/-- After so many pages that forward, a link is gone on with as another. -/
inductive Way (r : Resolver) :
    Nat → WrittenLink → Option Address → WrittenLink → Option Address → Prop where
  | here {link : WrittenLink} {referrer : Option Address} : Way r 0 link referrer link referrer
  | on {link target last : WrittenLink} {referrer scope : Option Address} {page : Page} {n : Nat}
      (stub : r.stub? link referrer = some (page, target))
      (rest : Way r n target (some page.address) last scope) : Way r (n + 1) link referrer last scope

theorem Way.forwards {n : Nat} (way : r.Way n first scope link referrer)
    (stub : r.stub? link referrer = some (page, target)) :
    r.Way (n + 1) first scope target (some page.address) := by
  induction way with
  | here => exact .on stub .here
  | on earlier _ ih => exact .on earlier (ih stub)

theorem Way.trail {n : Nat} (way : r.Way n first scope link referrer) (m : Nat) :
    r.trail (n + m) first scope = r.trail m link referrer := by
  induction way with
  | here => rw [Nat.zero_add]
  | on stub _ ih => rw [Nat.add_right_comm, trail_succ stub, ih]

theorem Way.started {n : Nat} (way : r.Way (n + 1) first scope link referrer) :
    (r.trail n first scope).isSome = true := by
  induction n generalizing first scope with
  | zero =>
      cases way with
      | on stub _ => simp [Resolver.trail, stub]
  | succ n ih =>
      cases way with
      | on stub rest =>
          rw [trail_succ stub]
          exact ih rest

/-- A link that is gone on with as itself is forwarded without end. -/
theorem Way.endless {n : Nat} (parsed : link.Parsed)
    (way : r.Way (n + 1) link (r.key link referrer).scope link referrer) :
    r.Endless link referrer := by
  intro k
  induction k using Nat.strongRecOn with
  | ind k ih =>
      by_cases near : k ≤ n
      · rw [← trail_scope parsed]
        exact trail_isSome_of_le near way.started
      · have again := way.trail (k - (n + 1))
        rw [show n + 1 + (k - (n + 1)) = k by omega, trail_scope parsed] at again
        rw [again]
        exact ih _ (by omega)

/-- Every mark is the key of a link that was forwarded to this one. -/
def Marked (r : Resolver) (marks : List CacheKey) (link : WrittenLink)
    (referrer : Option Address) : Prop :=
  ∀ mark ∈ marks, ∃ first : WrittenLink, first.Parsed ∧ first.text = mark.text ∧
    ∃ n, r.Way (n + 1) first mark.scope link referrer

theorem Marked.nil : r.Marked [] link referrer := by
  intro mark member
  cases member

theorem Marked.endless (marked : r.Marked marks link referrer) (parsed : link.Parsed)
    (member : r.key link referrer ∈ marks) : r.Endless link referrer := by
  obtain ⟨first, parsed', text, n, way⟩ := marked _ member
  obtain rfl := parsed'.eq_of_text parsed text
  exact way.endless parsed

theorem Marked.forwards (marked : r.Marked marks link referrer) (parsed : link.Parsed)
    (stub : r.stub? link referrer = some (page, target)) :
    r.Marked (r.key link referrer :: marks) target (some page.address) := by
  intro mark member
  rcases List.mem_cons.mp member with same | member
  · subst same
    exact ⟨link, parsed, rfl, 0, .on ((stub?_scope parsed referrer).trans stub) .here⟩
  · obtain ⟨first, parsed', text, n, way⟩ := marked mark member
    exact ⟨first, parsed', text, n + 1, way.forwards stub⟩

end Marks

section Depth

/-- Whether a page forwards, and nothing under the key of its target is being resolved. -/
def isOpen (r : Resolver) (marks : List CacheKey) (page : Page) : Bool :=
  match page.content with
  | .redirect _ target => !marks.contains (r.key target (some page.address))
  | _ => false

/-- How many pages may still be gone through. -/
def openCount (r : Resolver) (marks : List CacheKey) : Nat :=
  r.atlas.pageList.countP (r.isOpen marks)

theorem openCount_le (r : Resolver) (marks : List CacheKey) : r.openCount marks + 2 ≤ r.depth := by
  refine Nat.add_le_add_right (List.countP_mono_left ?_) 2
  intro page _ isOpen
  simp only [Resolver.isOpen] at isOpen
  split at isOpen
  · rename_i content
    rw [content]
    rfl
  · cases isOpen

theorem openCount_lt (stub : r.stub? link referrer = some (page, target))
    (fresh : r.key target (some page.address) ∉ marks) :
    r.openCount (r.key target (some page.address) :: marks) < r.openCount marks := by
  obtain ⟨_, _, title, content⟩ := stub?_lookup stub
  have before : page ∈ r.atlas.pageList.filter (r.isOpen marks) := by
    refine List.mem_filter.mpr ⟨stub?_mem stub, ?_⟩
    simpa [isOpen, content] using fresh
  have closed : r.isOpen (r.key target (some page.address) :: marks) page = false := by
    simp [isOpen, content]
  have stillOpen : ∀ p ∈ r.atlas.pageList, r.isOpen (r.key target (some page.address) :: marks) p →
      (r.isOpen (r.key target (some page.address) :: marks) p && r.isOpen marks p) = true := by
    intro p _ now
    have was : r.isOpen marks p = true := by
      simp only [isOpen] at now ⊢
      split at now
      · simp only [List.contains_cons, Bool.not_or, Bool.and_eq_true] at now
        exact now.2
      · cases now
    rw [now, was]
    rfl
  calc r.openCount (r.key target (some page.address) :: marks)
      ≤ (r.atlas.pageList.filter (r.isOpen marks)).countP
          (r.isOpen (r.key target (some page.address) :: marks)) := by
        rw [List.countP_filter]
        exact List.countP_mono_left stillOpen
    _ < (r.atlas.pageList.filter (r.isOpen marks)).length :=
        List.countP_lt_length_iff.mpr ⟨page, before, closed⟩
    _ = r.openCount marks := List.countP_eq_length_filter.symm

/-- A depth that suffices for a call: the call is under a mark, or else there is one level for each
page that may still be gone through and two more. -/
def Enough (r : Resolver) (depth : Nat) (key : CacheKey) (marks : List CacheKey) : Prop :=
  0 < depth ∧ (key ∉ marks → r.openCount (key :: marks) + 2 ≤ depth)

theorem enough_depth (r : Resolver) (key : CacheKey) (marks : List CacheKey) :
    r.Enough r.depth key marks :=
  ⟨Nat.lt_of_lt_of_le (Nat.succ_pos _) (r.openCount_le marks), fun _ => r.openCount_le _⟩

theorem Enough.forwards {depth : Nat} (enough : r.Enough (depth + 1) (r.key link referrer) marks)
    (fresh : r.key link referrer ∉ marks) (stub : r.stub? link referrer = some (page, target)) :
    r.Enough depth (r.key target (some page.address)) (r.key link referrer :: marks) := by
  have room := enough.2 fresh
  refine ⟨by omega, fun unmarked => ?_⟩
  have fewer := openCount_lt stub unmarked
  omega

end Depth

section Runs

/-- How a call goes that nests calls no deeper than so many levels, itself included. -/
inductive Runs (r : Resolver) :
    Nat → WrittenLink → Option Address → Memory → Resolution × Memory → Prop where
  /-- A web address is refused. -/
  | web {n : Nat} {link : WrittenLink} {referrer : Option Address} {m : Memory}
      (url : link.isUrl = true) : Runs r (n + 1) link referrer m (.error (urlFailure link), m)
  /-- The outcome is known. -/
  | known {n : Nat} {link : WrittenLink} {referrer : Option Address} {m : Memory}
      {outcome : Resolution} {cache : Cache} (page : link.isUrl = false)
      (stored : m.cache.get (r.key link referrer) = (some outcome, cache)) :
      Runs r (n + 1) link referrer m (outcome, { m with cache })
  /-- The link is being resolved. -/
  | marked {n : Nat} {link : WrittenLink} {referrer : Option Address} {m : Memory} {cache : Cache}
      (page : link.isUrl = false) (missed : m.cache.get (r.key link referrer) = (none, cache))
      (refused : cache.begin? (r.key link referrer) = none) :
      Runs r (n + 1) link referrer m (.error (.cyclic link.text), { m with cache })
  /-- The link arrives at no page that forwards, and is decided without following anything. -/
  | ends {n : Nat} {link : WrittenLink} {referrer : Option Address} {m m' : Memory}
      {outcome : Resolution} {cache begun : Cache} (page : link.isUrl = false)
      (missed : m.cache.get (r.key link referrer) = (none, cache))
      (started : cache.begin? (r.key link referrer) = some begun)
      (last : r.stub? link referrer = none)
      (decided : ∀ follow, r.decide follow link referrer { m with cache := begun } = (outcome, m')) :
      Runs r (n + 1) link referrer m (m'.settle (r.key link referrer) outcome)
  /-- The link arrives at a page that forwards, and its target is resolved one level deeper. -/
  | forwards {n : Nat} {link target : WrittenLink} {referrer : Option Address} {m m' : Memory}
      {stub : Page} {outcome : Resolution} {cache begun : Cache} (page : link.isUrl = false)
      (missed : m.cache.get (r.key link referrer) = (none, cache))
      (started : cache.begin? (r.key link referrer) = some begun)
      (arrived : r.stub? link referrer = some (stub, target))
      (rest : Runs r n target (some stub.address) { m with cache := begun } (outcome, m')) :
      Runs r (n + 1) link referrer m (m'.settle (r.key link referrer) (r.pass link outcome))

theorem Runs.unique {k n : Nat} {m : Memory} {one two : Resolution × Memory}
    (here : r.Runs k link referrer m one) (there : r.Runs n link referrer m two) : one = two := by
  induction here generalizing n two with
  | web url => cases there <;> simp_all
  | known page stored => cases there <;> simp_all
  | marked page missed refused => cases there <;> simp_all
  | ends page missed started last decided =>
      cases there with
      | ends _ missed' started' _ decided' =>
          cases missed.symm.trans missed'
          cases started.symm.trans started'
          cases (decided fun _ _ m => (.ok default, m)).symm.trans (decided' _)
          rfl
      | _ => simp_all
  | forwards page missed started arrived rest ih =>
      cases there with
      | forwards _ missed' started' arrived' rest' =>
          cases missed.symm.trans missed'
          cases started.symm.trans started'
          cases arrived.symm.trans arrived'
          cases ih rest'
          rfl
      | _ => simp_all

theorem decide_forwards (stub : r.stub? link referrer = some (page, target)) (follow : Follow)
    (m : Memory) :
    r.decide follow link referrer m =
      (r.pass link (follow target (some page.address) m).1,
        (follow target (some page.address) m).2) := by
  obtain ⟨_, found, title, content⟩ := stub?_lookup stub
  simp only [decide, found, arrive, content]
  split <;> rename_i called <;> simp only [called, pass]

/-- A link that arrives at no page that forwards is decided without following anything. It gives
what it leads to, and the memory is left alone unless the link is put to another bundle. -/
theorem decide_cases (notUrl : link.isUrl = false) (last : r.stub? link referrer = none) :
    (∀ (follow : Follow) (m : Memory),
      r.decide follow link referrer m = (r.direct link referrer, m)) ∨
    ∃ responder place, r.lookupLocally link referrer = .notFound ∧
      r.claimant? link = some (responder, place) ∧
      r.direct link referrer = responder.answer link ∧
      ∀ (follow : Follow) (m : Memory),
        r.decide follow link referrer m = m.ask responder place link := by
  simp only [stub?, notUrl, Bool.false_eq_true, if_false] at last
  simp only [decide, direct, notUrl, Bool.false_eq_true, if_false]
  cases found : r.lookupLocally link referrer with
  | found page =>
      refine .inl fun follow m => ?_
      simp only [found] at last
      simp only [arrive]
      split
      · rename_i content
        rw [content] at last
        cases last
      · rfl
  | ambiguous candidates => exact .inl fun _ _ => rfl
  | notFound =>
      cases claimed : r.claimant? link with
      | none => exact .inl fun _ _ => rfl
      | some claimant => exact .inr ⟨_, _, rfl, rfl, rfl, fun _ _ => rfl⟩

theorem decide_last (notUrl : link.isUrl = false) (last : r.stub? link referrer = none)
    (follow other : Follow) (m : Memory) :
    r.decide follow link referrer m = r.decide other link referrer m := by
  rcases decide_cases notUrl last with direct | ⟨responder, place, _, _, _, asked⟩
  · rw [direct, direct]
  · rw [asked, asked]

/-- With enough depth, a call goes in some way. -/
theorem resolveWithin_runs {depth : Nat} {m : Memory}
    (enough : r.Enough depth (r.key link referrer) m.cache.inFlight) :
    r.Runs depth link referrer m (r.resolveWithin depth link referrer m) := by
  induction depth generalizing link referrer m with
  | zero => exact absurd enough.1 (Nat.lt_irrefl 0)
  | succ depth ih =>
      rw [resolveWithin]
      cases notUrl : link.isUrl with
      | true => exact .web notUrl
      | false =>
          rcases got : m.cache.get (r.key link referrer) with ⟨answer, cache⟩
          simp only [Bool.false_eq_true, if_false, got]
          cases answer with
          | some outcome => exact .known notUrl got
          | none =>
              cases started : cache.begin? (r.key link referrer) with
              | none =>
                  simp only [started]
                  exact .marked notUrl got started
              | some begun =>
                  obtain ⟨fresh, _, flight⟩ := Cache.of_begin? got started
                  simp only [started]
                  cases stub : r.stub? link referrer with
                  | none =>
                      exact .ends notUrl got started stub fun _ => decide_last notUrl stub _ _ _
                  | some arrived =>
                      rw [decide_forwards stub]
                      exact .forwards notUrl got started stub
                        (ih (flight ▸ enough.forwards fresh stub))

theorem decide_ends (apart : r.Apart) (parsed : link.Parsed) (notUrl : link.isUrl = false)
    (last : r.stub? link referrer = none) {m : Memory} (sound : r.Sound m.cache) :
    ∃ m', (∀ follow, r.decide follow link referrer m = (r.direct link referrer, m')) ∧
      r.Sound m'.cache ∧ m'.cache.inFlight = m.cache.inFlight := by
  rcases decide_cases notUrl last with direct | ⟨responder, place, _, claimed, answer, asked⟩
  · exact ⟨m, fun follow => direct follow m, sound, rfl⟩
  · obtain ⟨answered, kept⟩ := sound.ask apart parsed claimed
    refine ⟨_, fun follow => ?_, kept, inFlight_ask m⟩
    rw [asked, answer, ← answered]

theorem settle_inFlight {m : Memory} {key : CacheKey} {marks : List CacheKey}
    (begun : m.cache.inFlight = key :: marks) (fresh : key ∉ marks) (outcome : Resolution) :
    (m.settle key outcome).2.cache.inFlight = marks := by
  simp only [Memory.settle, Cache.finish, Cache.inFlight_insert, begun, List.filter_cons,
    bne_self_eq_false, Bool.false_eq_true, if_false]
  refine List.filter_eq_self.mpr fun other member => ?_
  simpa using fun same : other = key => fresh (same ▸ member)

/-- What the targets of pages that forward have to be: links that were read. -/
def Readable (r : Resolver) : Prop :=
  ∀ page ∈ r.atlas.pageList, ∀ title target, page.content = .redirect title target → target.Parsed

/-- What a call does with a sound memory, if the marks are those of the calls that wait for it. -/
structure Meets (r : Resolver) (depth : Nat) (link : WrittenLink) (referrer : Option Address)
    (m : Memory) (result : Resolution × Memory) : Prop where
  right : r.Right link referrer result.1
  sound : r.Sound result.2.cache
  /-- Its marks are taken off. -/
  marks : result.2.cache.inFlight = m.cache.inFlight
  /-- Calls are nested no deeper than allowed. -/
  runs : r.Runs depth link referrer m result

theorem Runs.meets (apart : r.Apart) (readable : r.Readable) {depth : Nat} {m : Memory}
    {result : Resolution × Memory} (runs : r.Runs depth link referrer m result)
    (parsed : link.Parsed) (sound : r.Sound m.cache)
    (marked : r.Marked m.cache.inFlight link referrer) : r.Meets depth link referrer m result := by
  induction runs with
  | web url => exact ⟨.inl (.web url), sound, rfl, .web url⟩
  | @known _ link referrer m outcome cache page stored =>
      obtain ⟨found, same, flight⟩ := Cache.of_get stored
      have right := sound.here parsed found
      exact ⟨(right_scope parsed).mp right, sound.of_find? same, flight, .known page stored⟩
  | @marked _ link referrer m cache page missed refused =>
      obtain ⟨_, same, flight⟩ := Cache.of_get missed
      have waits := Cache.begin?_eq_none refused
      rw [flight] at waits
      exact ⟨.inr ⟨marked.endless parsed waits, link.text, rfl⟩, sound.of_find? same, flight,
        .marked page missed refused⟩
  | @ends _ link referrer m m' outcome cache begun page missed started last decided =>
      obtain ⟨fresh, same, flight⟩ := Cache.of_begin? missed started
      obtain ⟨_, direct, kept, left⟩ :=
        decide_ends apart parsed page last (m := { m with cache := begun }) (sound.of_find? same)
      obtain ⟨rfl, rfl⟩ :=
        Prod.mk.inj ((decided fun _ _ m => (.ok default, m)).symm.trans (direct _))
      obtain ⟨right, settled⟩ := kept.settle apart parsed (.inl (.ends last))
      exact ⟨right, settled.of_find? fun _ => rfl, settle_inFlight (left.trans flight) fresh _,
        .ends page missed started last decided⟩
  | @forwards _ link target referrer m m' stub outcome cache begun page missed started arrived rest
      ih =>
      obtain ⟨fresh, same, flight⟩ := Cache.of_begin? missed started
      obtain ⟨_, _, title, content⟩ := stub?_lookup arrived
      have nested := ih (readable stub (stub?_mem arrived) title target content)
        (sound.of_find? same) (flight ▸ marked.forwards parsed arrived)
      obtain ⟨right, settled⟩ := nested.sound.settle apart parsed (nested.right.forwards arrived)
      exact ⟨right, settled.of_find? fun _ => rfl,
        settle_inFlight (nested.marks.trans flight) fresh _,
        .forwards page missed started arrived nested.runs⟩

theorem resolveWithin_meets (apart : r.Apart) (readable : r.Readable) {depth : Nat} {m : Memory}
    (parsed : link.Parsed) (sound : r.Sound m.cache)
    (marked : r.Marked m.cache.inFlight link referrer)
    (enough : r.Enough depth (r.key link referrer) m.cache.inFlight) :
    r.Meets depth link referrer m (r.resolveWithin depth link referrer m) :=
  (resolveWithin_runs enough).meets apart readable parsed sound marked

end Runs

end Concordance.Resolver
