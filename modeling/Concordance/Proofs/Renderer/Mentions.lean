import Mathlib
import Concordance.Proofs.Rendered.Mentions
import Concordance.Proofs.Renderer.Shared

/-! # What a page mentions and what it is rendered from

Every identifier that a page mentions was used before, and is among the references of the
page from then on. Whether a link is active is told by its own target, but what stands
under its identifier was put there by whatever used the identifier first. So the two agree
where all that could stand under an identifier leads somewhere, or all of it nowhere.
-/

namespace Concordance

open Rendered (References Reference Lead Mention)

/-- The text of a link that leads nowhere, as it was written. -/
def Link.dead? (l : Link) : Option String :=
  match l.destination with
  | .failed failure => some failure.link
  | .unresolved link => some link.text
  | _ => none

namespace Content

def running : Content → List Link
  | article _ docs => Inlines.links docs.summary ++ docs.discussion.flatMap Block.links
  | redirect _ _ => []
  | symbol s => Inlines.links s.docs.summary ++ s.docs.discussion.flatMap Block.links
  | tutorial t => t.links

def related : Content → List Link
  | symbol s => s.relations.map Relation.target
  | _ => []

end Content

namespace Renderer

def grouped (gs : List LinkGroup) : List Address :=
  gs.flatMap fun g => (targets g.links).map Prod.fst

/-- The pages that are listed with a page that holds given prose. -/
def listing (r : Renderer) (page : Page) (docs : Markup) : List Address :=
  grouped docs.topics ++ (r.uncurated page []).map Page.address ++ grouped docs.seeAlso

/-- The pages that are listed with a page that holds given content. -/
def listed (r : Renderer) (page : Page) : Content → List Address
  | .article _ docs => r.listing page docs
  | .symbol s => r.listing page s.docs
  | _ => []

/-- Whether there is anything to show of an address, when pages are rendered with a store. -/
def lead (r : Renderer) (store : References) (address : Address) : Lead :=
  if store.has address.identifier || (r.topic? address).isSome then .page else .nowhere

/-- Where a link leads, and the identifier that it uses. -/
def leadOf (r : Renderer) (store : References) (l : Link) : Lead × String :=
  match l.destination with
  | .resolved address => (r.lead store address, address.identifier)
  | .url url => (.web, url)
  | .failed failure => (.nowhere, failure.link)
  | .unresolved written => (.nowhere, written.text)

/-- All that can stand under an identifier on a page that holds given content. -/
def leads (r : Renderer) (store : References) (page : Page) (content : Content) :
    List (Lead × String) :=
  (content.running ++ content.related).map (r.leadOf store) ++
    (r.listed page content ++ (r.ancestors page).map Page.address).map fun address =>
      (r.lead store address, address.identifier)

variable {r : Renderer} {S : Lead → String → Prop} {store : References} {page : Page}

/-- Pages in the making grow by what they use. -/
instance : Preorder Draft where
  le d d' := ∀ id, d.used.has id = true → d'.used.has id = true
  le_refl _ _ used := used
  le_trans _ _ _ first second id used := second id (first id used)

/-- What can be stored: pages under their own identifiers, with summaries that mention nothing. -/
structure Shown (entry : String × Reference) : Prop where
  own : entry.2.identifier = entry.1
  plain : entry.2.mentions = []
  lead : entry.2.lead = .page

/-- A page in the making that uses references of a kind. -/
structure Draft.Sound (S : Lead → String → Prop) (store : References) (d : Draft) : Prop where
  shown : ∀ entry ∈ d.store, Shown entry
  grown : ∀ id, store.has id = true → d.store.has id = true
  stored : ∀ id, d.store.has id = true → store.has id = true ∨ S .page id
  own : ∀ entry ∈ d.used, entry.2.identifier = entry.1
  plain : ∀ entry ∈ d.used, entry.2.mentions = []
  leads : ∀ entry ∈ d.used, S entry.2.lead entry.1

/-- An identifier is used, and what is said of it is the case of something of that identifier. -/
def Backed (S : Lead → String → Prop) (d : Draft) : Mention → Prop
  | .entry id => d.used.has id = true ∧ S .page id
  | .link id isActive => d.used.has id = true ∧ ∃ lead, S lead id ∧ lead.isLive = isActive
  | .name id => d.used.has id = true

theorem Backed.used {d : Draft} {m : Mention} (backed : Backed S d m) :
    d.used.has m.identifier = true := by
  cases m with
  | entry | link => exact backed.1
  | name => exact backed

theorem flat_mentions (xs : Inlines) : (flat xs).flatMap Rendered.Inline.mentions = [] := by
  rw [flat]
  split <;> rfl

theorem plain_mentions (text : String) : (plain text).flatMap Rendered.Inline.mentions = [] := by
  rw [plain]
  split <;> rfl

theorem topic?_shown {address : Address} {reference : Reference}
    (made : r.topic? address = some reference) : Shown (address.identifier, reference) := by
  simp only [topic?] at made
  split at made <;> obtain ⟨_, _, rfl⟩ := Option.map_eq_some_iff.mp made
  · exact ⟨rfl, flat_mentions _, rfl⟩
  · exact ⟨rfl, plain_mentions _, rfl⟩

theorem use_yields (reference : Reference) (plain : reference.mentions = [])
    (leads : S reference.lead reference.identifier) :
    Yields (Draft.Sound S store)
      (fun id d => id = reference.identifier ∧ d.used.has id = true) (use reference) := by
  intro d sound
  rw [use_run]
  have used (id : String) : (d.used.putNew reference.identifier reference).has id =
      (id == reference.identifier || d.used.has id) := Assoc.has_putNew ..
  have each {P : String × Reference → Prop} (here : P (reference.identifier, reference))
      (before : ∀ entry ∈ d.used, P entry) :
      ∀ entry ∈ d.used.putNew reference.identifier reference, P entry := fun entry member =>
    (Assoc.mem_putNew member).elim (fun new => new ▸ here) (before entry)
  refine ⟨?_, fun id before => by simp [used, before], fun t later =>
    ⟨rfl, later _ (by simp [used])⟩⟩
  exact { sound with
    own := each rfl sound.own
    plain := each plain sound.plain
    leads := each leads sound.leads }

theorem mem_getOrInsert {s : References} {id : String} {reference : Option Reference}
    {entry : String × Reference} (member : entry ∈ (s.getOrInsert id reference).2) :
    entry ∈ s ∨ ∃ made, reference = some made ∧ entry = (made.identifier, made) := by
  unfold References.getOrInsert at member
  split at member
  · exact .inl member
  · rename_i made _
    simp only [References.insert] at member
    split at member
    · exact .inl member
    · exact (Assoc.mem_put member).elim (fun new => .inr ⟨made, rfl, new⟩) .inl
  · exact .inl member

theorem shown_getOrInsert {s : References} (shown : ∀ entry ∈ s, Shown entry) (address : Address) :
    ∀ entry ∈ (s.getOrInsert address.identifier (r.topic? address)).2, Shown entry := by
  intro entry member
  rcases mem_getOrInsert member with old | ⟨made, topic, rfl⟩
  · exact shown entry old
  · exact topic?_identifier topic ▸ topic?_shown topic

theorem Draft.Sound.lookUp {d : Draft} (sound : d.Sound S store) {address : Address}
    (admitted : S (r.lead store address) address.identifier) :
    ({ d with store := (d.store.getOrInsert address.identifier (r.topic? address)).2 } :
      Draft).Sound S store := by
  have has (id : String) :
      (d.store.getOrInsert address.identifier (r.topic? address)).2.has id =
        (d.store.has id || (id == address.identifier && (r.topic? address).isSome)) := by
    rw [Assoc.has, References.get?_getOrInsert fun _ => topic?_identifier]
    by_cases here : id = address.identifier <;> simp [here, Assoc.has]
  refine { sound with
    shown := shown_getOrInsert sound.shown address, grown := ?_, stored := ?_ }
  · intro id before
    simp [has, sound.grown id before]
  · intro id after
    rw [has, Bool.or_eq_true, Bool.and_eq_true] at after
    rcases after with before | ⟨here, topic⟩
    · exact sound.stored id before
    · rw [eq_of_beq here]
      simp only [Renderer.lead, topic, Bool.or_true, if_true] at admitted
      exact .inr admitted

/-- What is told when an identifier is used, by where it may lead. -/
structure Told (S : Lead → String → Prop) (lead : Lead) (id : String) (found : String × Bool)
    (d : Draft) : Prop where
  identifier : found.1 = id
  backed : Backed S d (.link found.1 found.2)
  live : lead.isLive = true → found.2 = true

theorem target_yields {address : Address} (text : String)
    (admitted : S (r.lead store address) address.identifier) :
    Yields (Draft.Sound S store)
      (fun found d => Told S (r.lead store address) address.identifier found d ∧
        (found.2 = true → S .page found.1)) (r.target address text) := by
  intro d sound
  rw [target_run]
  cases found : (d.store.get? address.identifier).or (r.topic? address) with
  | some reference =>
      have facts : Shown (address.identifier, reference) ∧ S .page address.identifier := by
        rcases Option.or_eq_some_iff.mp found with stored | ⟨_, topic⟩
        · refine ⟨sound.shown _ (Assoc.mem_of_get? stored), ?_⟩
          rcases sound.stored _ (Option.isSome_of_eq_some stored) with before | page
          · simpa [Renderer.lead, before] using admitted
          · exact page
        · exact ⟨topic?_shown topic, by simpa [Renderer.lead, topic] using admitted⟩
      obtain ⟨shown, page⟩ := facts
      have own : reference.identifier = address.identifier := shown.own
      have lead : reference.lead = .page := shown.lead
      obtain ⟨after, grown, made⟩ := use_yields reference shown.plain
        (by rwa [lead, own]) _ (sound.lookUp admitted)
      refine ⟨after, grown, fun t later => ⟨⟨own, ?_, fun _ => rfl⟩, fun _ => own ▸ page⟩⟩
      exact ⟨(made t later).2, .page, own ▸ page, rfl⟩
  | none =>
      obtain ⟨unstored, unknown⟩ := Option.or_eq_none_iff.mp found
      have absent : store.has address.identifier = false := by
        by_contra present
        have there := sound.grown _ (by simpa using present)
        simp [Assoc.has, unstored] at there
      have nowhere : r.lead store address = .nowhere := by simp [Renderer.lead, absent, unknown]
      rw [nowhere] at admitted ⊢
      obtain ⟨after, grown, made⟩ := use_yields (.unresolved address.identifier text) rfl
        admitted _ (sound.lookUp (r := r) (nowhere ▸ admitted))
      refine ⟨after, grown, fun t later => ⟨⟨rfl, ?_, fun live => ?_⟩, fun live => ?_⟩⟩
      · exact ⟨(made t later).2, .nowhere, admitted, rfl⟩
      · cases live
      · cases live

theorem link_yields {l : Link} (admitted : S (r.leadOf store l).1 (r.leadOf store l).2) :
    Yields (Draft.Sound S store)
      (fun found d => Told S (r.leadOf store l).1 (r.leadOf store l).2 found d ∧
        (l.dead?.isSome = true → found.2 = false)) (r.link l) := by
  obtain ⟨destination, title⟩ := l
  cases destination with
  | resolved address =>
      exact (target_yields _ admitted).mono fun found d told => ⟨told.1, fun dead => by cases dead⟩
  | url url =>
      refine (use_yields (.link url _ url) rfl admitted).bind fun id =>
        .pure fun d ⟨own, used⟩ => ⟨⟨own, ⟨used, .web, own ▸ admitted, rfl⟩, fun _ => rfl⟩, ?_⟩
      exact fun dead => by cases dead
  | failed failure =>
      refine (use_yields (.unresolved failure.link _) rfl admitted).bind fun id =>
        .pure fun d ⟨own, used⟩ =>
          ⟨⟨own, ⟨used, .nowhere, own ▸ admitted, rfl⟩, fun live => by cases live⟩, fun _ => rfl⟩
  | unresolved written =>
      refine (use_yields (.unresolved written.text _) rfl admitted).bind fun id =>
        .pure fun d ⟨own, used⟩ =>
          ⟨⟨own, ⟨used, .nowhere, own ▸ admitted, rfl⟩, fun live => by cases live⟩, fun _ => rfl⟩

/-- Links of which each may lead where it does. -/
def Admits (r : Renderer) (S : Lead → String → Prop) (store : References) (links : List Link) :
    Prop :=
  ∀ l ∈ links, S (r.leadOf store l).1 (r.leadOf store l).2

/-- Each link is among what is mentioned. It is active if it leads anywhere, and is not if it was
resolved without success. -/
def Tells (r : Renderer) (store : References) (links : List Link) (mentions : List Mention) :
    Prop :=
  ∀ l ∈ links, ∃ isActive, Mention.link (r.leadOf store l).2 isActive ∈ mentions ∧
    ((r.leadOf store l).1.isLive = true → isActive = true) ∧
    (l.dead?.isSome = true → isActive = false)

/-- Running text mentions its links, and what it mentions is backed. -/
structure Renders (r : Renderer) (S : Lead → String → Prop) (store : References)
    (links : List Link) (mentions : List Mention) (d : Draft) : Prop where
  backed : ∀ m ∈ mentions, Backed S d m
  tells : r.Tells store links mentions

section Running

variable {links links' : List Link} {mentions mentions' : List Mention} {d : Draft}

theorem Admits.mono (admits : r.Admits S store links) (fewer : ∀ l ∈ links', l ∈ links) :
    r.Admits S store links' :=
  fun l member => admits l (fewer l member)

theorem Tells.mono (tells : r.Tells store links mentions)
    (more : ∀ m ∈ mentions, m ∈ mentions') : r.Tells store links mentions' := by
  intro l member
  obtain ⟨isActive, inside, told⟩ := tells l member
  exact ⟨isActive, more _ inside, told⟩

theorem Renders.nil : r.Renders S store [] [] d :=
  ⟨List.forall_mem_nil _, List.forall_mem_nil _⟩

theorem Renders.append (first : r.Renders S store links mentions d)
    (second : r.Renders S store links' mentions' d) :
    r.Renders S store (links ++ links') (mentions ++ mentions') d where
  backed := List.forall_mem_append.mpr ⟨first.backed, second.backed⟩
  tells := List.forall_mem_append.mpr
    ⟨first.tells.mono fun _ => List.mem_append_left _,
      second.tells.mono fun _ => List.mem_append_right _⟩

theorem Renders.mapM {α β : Type} {x : α → Step β} {linksOf : α → List Link}
    {mentionsOf : β → List Mention} {l : List α}
    (each : ∀ a ∈ l, Yields (Draft.Sound S store)
      (fun b => r.Renders S store (linksOf a) (mentionsOf b)) (x a)) :
    Yields (Draft.Sound S store)
      (fun bs => r.Renders S store (l.flatMap linksOf) (bs.flatMap mentionsOf)) (l.mapM x) := by
  refine (Yields.mapM each).mono fun bs d ⟨made, all⟩ => ⟨fun m member => ?_, fun link member => ?_⟩
  · obtain ⟨b, inside, mention⟩ := List.mem_flatMap.mp member
    obtain ⟨a, _, renders⟩ := made b inside
    exact renders.backed m mention
  · obtain ⟨a, inside, within⟩ := List.mem_flatMap.mp member
    obtain ⟨b, there, renders⟩ := all a inside
    exact renders.tells.mono (fun m mention => List.mem_flatMap.mpr ⟨b, there, mention⟩) link within

theorem inline_yields {i : Inline} (admits : r.Admits S store i.links) :
    Yields (Draft.Sound S store) (fun y => r.Renders S store i.links y.mentions) (r.inline i) := by
  cases i with
  | code | text => exact .pure fun d => .nil
  | link l =>
      refine (link_yields (admits l (List.mem_singleton_self l))).bind fun found =>
        .pure fun d ⟨told, dead⟩ => ⟨?_, ?_⟩
      · exact List.forall_mem_singleton.mpr told.backed
      · refine List.forall_mem_singleton.mpr ⟨found.2, ?_, told.live, dead⟩
        rw [← told.identifier]
        exact List.mem_singleton_self _

theorem inlines_yields {xs : Inlines} (admits : r.Admits S store xs.links) :
    Yields (Draft.Sound S store)
      (fun ys => r.Renders S store xs.links (ys.flatMap Rendered.Inline.mentions))
      (r.inlines xs) :=
  Renders.mapM fun i member => inline_yields (admits.mono fun _ inside =>
    List.mem_flatMap.mpr ⟨i, member, inside⟩)

theorem items_yields {xs : List Inlines} (admits : r.Admits S store (xs.flatMap Inlines.links)) :
    Yields (Draft.Sound S store)
      (fun ys => r.Renders S store (xs.flatMap Inlines.links)
        (ys.flatMap fun item => item.flatMap Rendered.Inline.mentions)) (xs.mapM r.inlines) :=
  Renders.mapM fun item member => inlines_yields (admits.mono fun _ inside =>
    List.mem_flatMap.mpr ⟨item, member, inside⟩)

theorem block_yields {b : Block} (admits : r.Admits S store b.links) :
    Yields (Draft.Sound S store) (fun y => r.Renders S store b.links y.mentions) (r.block b) := by
  cases b with
  | code | heading => exact .pure fun d => .nil
  | list ordered items =>
      cases ordered <;> exact (items_yields admits).bind fun ys => .pure fun d renders => renders
  | paragraph content => exact (inlines_yields admits).bind fun ys => .pure fun d renders => renders

theorem blocks_yields {bs : List Block} (admits : r.Admits S store (bs.flatMap Block.links)) :
    Yields (Draft.Sound S store)
      (fun ys => r.Renders S store (bs.flatMap Block.links)
        (ys.flatMap Rendered.Block.mentions)) (bs.mapM r.block) :=
  Renders.mapM fun b member => block_yields (admits.mono fun _ inside =>
    List.mem_flatMap.mpr ⟨b, member, inside⟩)

theorem discussion_yields {bs : List Block} (admits : r.Admits S store (bs.flatMap Block.links)) :
    Yields (Draft.Sound S store)
      (fun ys => r.Renders S store (bs.flatMap Block.links)
        (ys.flatMap Rendered.Section.mentions)) (r.discussion bs) := by
  rw [discussion]
  split
  · rename_i none
    rw [List.isEmpty_iff.mp none]
    exact .pure fun d => .nil
  · refine (blocks_yields admits).bind fun ys => .pure fun d renders => ?_
    simpa [Rendered.Section.mentions] using renders

theorem chapter_yields {s : TutorialSection} (admits : r.Admits S store s.links) :
    Yields (Draft.Sound S store) (fun y => r.Renders S store s.links y.mentions) (r.chapter s) := by
  refine (blocks_yields (admits.mono fun _ => List.mem_append_left _)).bind fun content => ?_
  refine (items_yields (admits.mono fun _ => List.mem_append_right _)).bind fun steps => ?_
  exact .pure fun d steps content => content.append steps

end Running

section Listed

variable {addresses : List Address} {d : Draft}

/-- Addresses of which each may lead where it does. -/
def Opens (r : Renderer) (S : Lead → String → Prop) (store : References)
    (addresses : List Address) : Prop :=
  ∀ address ∈ addresses, S (r.lead store address) address.identifier

/-- Identifiers of pages that are used. Each address that leads to a page is among them. -/
structure Lists (r : Renderer) (S : Lead → String → Prop) (store : References)
    (addresses : List Address) (ids : List String) (d : Draft) : Prop where
  backed : ∀ id ∈ ids, Backed S d (.entry id)
  all : ∀ address ∈ addresses, r.lead store address = .page → address.identifier ∈ ids

theorem Opens.mono {others : List Address} (opens : r.Opens S store addresses)
    (fewer : ∀ address ∈ others, address ∈ addresses) : r.Opens S store others :=
  fun address member => opens address (fewer address member)

theorem live_yields {targets : List (Address × String)}
    (opens : r.Opens S store (targets.map Prod.fst)) :
    Yields (Draft.Sound S store) (r.Lists S store (targets.map Prod.fst)) (r.live targets) := by
  refine (Yields.mapM fun target member =>
    target_yields target.2 (opens target.1 (List.mem_map_of_mem member))).bind fun found => ?_
  refine .pure fun d ⟨made, all⟩ => ⟨fun id member => ?_, fun address member page => ?_⟩
  · obtain ⟨⟨_, isLive⟩, kept, rfl⟩ := List.mem_map.mp member
    obtain ⟨inside, live⟩ := List.mem_filter.mp kept
    obtain ⟨target, _, told, page⟩ := made _ inside
    exact ⟨told.backed.1, page live⟩
  · obtain ⟨target, inside, rfl⟩ := List.mem_map.mp member
    obtain ⟨one, there, told, _⟩ := all target inside
    refine List.mem_map.mpr ⟨one, List.mem_filter.mpr ⟨there, told.live ?_⟩, told.identifier⟩
    rw [page]
    rfl

theorem groups_yields {gs : List LinkGroup} (opens : r.Opens S store (grouped gs)) :
    Yields (Draft.Sound S store)
      (fun written => r.Lists S store (grouped gs) (written.flatMap Rendered.Group.identifiers))
      (r.groups gs) := by
  have each (g : LinkGroup) (member : g ∈ gs) : Yields (Draft.Sound S store)
      (fun written : Rendered.Group =>
        r.Lists S store ((targets g.links).map Prod.fst) written.identifiers) (r.group g) :=
    (live_yields (opens.mono fun _ inside => List.mem_flatMap.mpr ⟨g, member, inside⟩)).bind
      fun ids => .pure fun d lists => lists
  refine (Yields.mapM each).bind fun written => .pure fun d ⟨made, all⟩ =>
    ⟨fun id member => ?_, fun address member page => ?_⟩
  · obtain ⟨one, kept, inside⟩ := List.mem_flatMap.mp member
    obtain ⟨g, _, lists⟩ := made one (List.mem_filter.mp kept).1
    exact lists.backed id inside
  · obtain ⟨g, there, target⟩ := List.mem_flatMap.mp member
    obtain ⟨one, inside, lists⟩ := all g there
    have listed := lists.all address target page
    refine List.mem_flatMap.mpr ⟨one, List.mem_filter.mpr ⟨inside, ?_⟩, listed⟩
    simpa using List.ne_nil_of_mem listed

theorem generated_yields {pages : List Page}
    (opens : r.Opens S store (pages.map Page.address)) :
    Yields (Draft.Sound S store)
      (fun generated => r.Lists S store (pages.map Page.address)
        (generated.flatMap Rendered.Group.identifiers))
      ((Curation.groups pages).mapM fun (title, members) => r.generatedGroup title members) := by
  have each (group : String × List Page) (member : group ∈ Curation.groups pages) :
      Yields (Draft.Sound S store)
        (fun generated : Rendered.Group =>
          r.Lists S store (group.2.map Page.address) generated.identifiers)
        (r.generatedGroup group.1 group.2) := by
    have same : (group.2.map fun p => (p.address, p.title)).map Prod.fst =
        group.2.map Page.address := by simp
    rw [← same]
    refine (live_yields (opens.mono fun _ inside => ?_)).bind fun ids => .pure fun d lists => lists
    rw [same] at inside
    obtain ⟨p, within, rfl⟩ := List.mem_map.mp inside
    exact List.mem_map_of_mem (Curation.mem_groups member within)
  refine (Yields.mapM each).mono fun generated d ⟨made, all⟩ =>
    ⟨fun id member => ?_, fun address member page => ?_⟩
  · obtain ⟨one, kept, inside⟩ := List.mem_flatMap.mp member
    obtain ⟨group, _, lists⟩ := made one kept
    exact lists.backed id inside
  · obtain ⟨p, inside, rfl⟩ := List.mem_map.mp member
    obtain ⟨group, there, within⟩ := Curation.exists_group inside
    obtain ⟨one, kept, lists⟩ := all group there
    exact List.mem_flatMap.mpr ⟨one, kept, lists.all _ (List.mem_map_of_mem within) page⟩

theorem topics_yields {authored : List LinkGroup}
    (opens : r.Opens S store (grouped authored ++ (r.uncurated page []).map Page.address)) :
    Yields (Draft.Sound S store)
      (fun topics => r.Lists S store (grouped authored ++ (r.uncurated page []).map Page.address)
        (topics.flatMap Rendered.Group.identifiers)) (r.topics page authored) := by
  refine (groups_yields (opens.mono fun _ => List.mem_append_left _)).bind fun written => ?_
  let listed := written.flatMap Rendered.Group.identifiers
  refine (generated_yields (opens.mono fun address inside => ?_)).bind fun generated =>
    .pure fun d left first => ⟨fun id member => ?_, fun address member page => ?_⟩
  · obtain ⟨p, below, rfl⟩ := List.mem_map.mp inside
    exact List.mem_append_right _ (List.mem_map_of_mem (mem_uncurated below))
  · rw [List.flatMap_append] at member
    exact (List.mem_append.mp member).elim (first.backed id) (left.backed id)
  · rw [List.flatMap_append]
    rcases List.mem_append.mp member with chosen | below
    · exact List.mem_append_left _ (first.all address chosen page)
    · obtain ⟨p, under, rfl⟩ := List.mem_map.mp below
      -- What the author has listed is not listed again.
      by_cases chosen : p.address.identifier ∈ listed
      · exact List.mem_append_left _ chosen
      · obtain ⟨inside, shown⟩ := List.mem_filter.mp under
        refine List.mem_append_right _ (left.all _ (List.mem_map_of_mem ?_) page)
        refine List.mem_filter.mpr ⟨inside, ?_⟩
        simp only [Bool.and_eq_true] at shown ⊢
        exact ⟨shown.1, by simpa [listed] using chosen⟩

end Listed

theorem relations_yields {rs : List Relation} (admits : r.Admits S store (rs.map Relation.target)) :
    Yields (Draft.Sound S store)
      (fun sections d => ∀ m ∈ sections.flatMap Rendered.Relations.mentions, Backed S d m)
      (r.relations rs) := by
  have each (relation : Relation) (member : relation ∈ rs) : Yields (Draft.Sound S store)
      (fun (found : RelationKind × String) d => d.used.has found.2 = true)
      (r.link relation.target >>= fun found => pure (relation.kind, found.1)) :=
    (link_yields (admits _ (List.mem_map_of_mem member))).bind fun found =>
      .pure fun d ⟨told, _⟩ => told.backed.1
  refine (Yields.mapM each).bind fun found => .pure fun d ⟨made, _⟩ m member => ?_
  obtain ⟨one, kept, mention⟩ := List.mem_flatMap.mp member
  obtain ⟨kind, _, some⟩ := List.mem_filterMap.mp kept
  simp only [relationsOfKind] at some
  split at some
  · cases some
  · cases some
    obtain ⟨id, inside, rfl⟩ := List.mem_map.mp mention
    obtain ⟨pair, here, rfl⟩ := List.mem_map.mp inside
    obtain ⟨_, _, used⟩ := made pair (List.mem_filter.mp here).1
    exact used

theorem hierarchy_yields (opens : r.Opens S store ((r.ancestors page).map Page.address)) :
    Yields (Draft.Sound S store)
      (fun ways d => ∀ m ∈ ways.flatten.map Mention.name, Backed S d m) (r.hierarchy page) := by
  have each (p : Page) (member : p ∈ r.ancestors page) : Yields (Draft.Sound S store)
      (fun id d => d.used.has id = true)
      (r.target p.address p.title >>= fun found => pure found.1) :=
    (target_yields p.title (opens _ (List.mem_map_of_mem member))).bind fun found =>
      .pure fun d ⟨told, _⟩ => told.backed.1
  refine (Yields.mapM each).bind fun way => .pure fun d ⟨made, _⟩ m member => ?_
  obtain ⟨id, inside, rfl⟩ := List.mem_map.mp member
  obtain ⟨_, _, used⟩ := made id (by simpa using inside)
  exact used

/-- What a page mentions is backed. It mentions the links in its running text, and lists the pages
that belong to it. -/
structure Accounts (r : Renderer) (S : Lead → String → Prop) (store : References) (page : Page)
    (content : Content) (rendered : Rendered.Page) (d : Draft) : Prop where
  backed : ∀ m ∈ rendered.mentions, Backed S d m
  tells : r.Tells store content.running rendered.mentions
  lists : ∀ address ∈ r.listed page content, r.lead store address = .page →
    .entry address.identifier ∈ rendered.mentions

theorem groups_mentions (gs : List Rendered.Group) :
    gs.flatMap Rendered.Group.mentions =
      (gs.flatMap Rendered.Group.identifiers).map Mention.entry := by
  rw [List.map_flatMap]
  rfl

theorem declarations_mentions (p : Presentation) :
    (declarations p).flatMap Rendered.Section.mentions = [] := by
  rw [declarations]
  split <;> rfl

section Whole

variable {content : Content} {d : Draft} {rendered : Rendered.Page}

theorem accounts_of_docs {docs : Markup}
    (running : content.running = Inlines.links docs.summary ++ docs.discussion.flatMap Block.links)
    (listed : r.listed page content = r.listing page docs)
    (summary : r.Renders S store (Inlines.links docs.summary)
      (rendered.summary.flatMap Rendered.Inline.mentions) d)
    (way : ∀ m ∈ rendered.hierarchy.flatten.map Mention.name, Backed S d m)
    (sections : r.Renders S store (docs.discussion.flatMap Block.links)
      (rendered.sections.flatMap Rendered.Section.mentions) d)
    (relations : ∀ m ∈ rendered.relations.flatMap Rendered.Relations.mentions, Backed S d m)
    (chapters : rendered.chapters = [])
    (topics : r.Lists S store (grouped docs.topics ++ (r.uncurated page []).map Page.address)
      (rendered.topics.flatMap Rendered.Group.identifiers) d)
    (seeAlso : r.Lists S store (grouped docs.seeAlso)
      (rendered.seeAlso.flatMap Rendered.Group.identifiers) d) :
    r.Accounts S store page content rendered d := by
  have mem (m : Mention) : m ∈ rendered.mentions ↔
      m ∈ rendered.summary.flatMap Rendered.Inline.mentions ∨
        m ∈ rendered.hierarchy.flatten.map Mention.name ∨
        m ∈ rendered.sections.flatMap Rendered.Section.mentions ∨
        m ∈ rendered.relations.flatMap Rendered.Relations.mentions ∨
        m ∈ (rendered.seeAlso.flatMap Rendered.Group.identifiers).map Mention.entry ∨
        m ∈ (rendered.topics.flatMap Rendered.Group.identifiers).map Mention.entry := by
    simp only [Rendered.Page.mentions, chapters, groups_mentions, List.flatMap_nil,
      List.append_nil, List.mem_append, or_assoc]
  refine ⟨fun m member => ?_, ?_, ?_⟩
  · rcases (mem m).mp member with inside | inside | inside | inside | inside | inside
    · exact summary.backed m inside
    · exact way m inside
    · exact sections.backed m inside
    · exact relations m inside
    · obtain ⟨id, listed, rfl⟩ := List.mem_map.mp inside
      exact seeAlso.backed id listed
    · obtain ⟨id, listed, rfl⟩ := List.mem_map.mp inside
      exact topics.backed id listed
  · rw [running]
    refine List.forall_mem_append.mpr ⟨summary.tells.mono ?_, sections.tells.mono ?_⟩
    · exact fun m inside => (mem m).mpr (.inl inside)
    · exact fun m inside => (mem m).mpr (.inr (.inr (.inl inside)))
  · rw [listed]
    refine List.forall_mem_append.mpr ⟨fun address here page => ?_, fun address here page => ?_⟩
    · exact (mem _).mpr (.inr (.inr (.inr (.inr (.inr
        (List.mem_map_of_mem (topics.all address here page)))))))
    · exact (mem _).mpr (.inr (.inr (.inr (.inr (.inl
        (List.mem_map_of_mem (seeAlso.all address here page)))))))

theorem page_yields (admitted : ∀ lead ∈ r.leads store page content, S lead.1 lead.2) :
    Yields (Draft.Sound S store) (r.Accounts S store page content) (r.page page content) := by
  have links : r.Admits S store (content.running ++ content.related) := fun l member =>
    admitted _ (List.mem_append_left _ (List.mem_map_of_mem member))
  have running := links.mono fun _ => List.mem_append_left _
  have opens : r.Opens S store (r.listed page content ++ (r.ancestors page).map Page.address) :=
    fun address member => admitted _ (List.mem_append_right _ (List.mem_map.mpr ⟨_, member, rfl⟩))
  have listed := opens.mono fun _ => List.mem_append_left _
  have way := hierarchy_yields (opens.mono fun _ => List.mem_append_right _)
  simp only [Renderer.page, body]
  cases content with
  | article title docs =>
      refine (inlines_yields (running.mono fun _ => List.mem_append_left _)).bind fun _ => ?_
      refine way.bind fun _ => ?_
      refine (discussion_yields (running.mono fun _ => List.mem_append_right _)).bind fun _ => ?_
      refine (topics_yields (listed.mono fun _ => List.mem_append_left _)).bind fun _ => ?_
      refine (groups_yields (listed.mono fun _ => List.mem_append_right _)).bind fun _ => ?_
      exact .pure fun d seeAlso topics sections way summary =>
        accounts_of_docs rfl rfl summary way sections (List.forall_mem_nil _) rfl topics seeAlso
  | redirect title target =>
      refine (inlines_yields fun l member => by cases member).bind fun _ => ?_
      refine way.bind fun _ => ?_
      refine .pure fun d way summary => ⟨?_, List.forall_mem_nil _, List.forall_mem_nil _⟩
      simp only [Rendered.Page.mentions, List.flatMap_nil, List.append_nil]
      exact List.forall_mem_append.mpr ⟨summary.backed, way⟩
  | symbol s =>
      refine (inlines_yields (running.mono fun _ => List.mem_append_left _)).bind fun _ => ?_
      refine way.bind fun _ => ?_
      refine (discussion_yields (running.mono fun _ => List.mem_append_right _)).bind fun _ => ?_
      refine (topics_yields (listed.mono fun _ => List.mem_append_left _)).bind fun _ => ?_
      refine (relations_yields (links.mono fun _ => List.mem_append_right _)).bind fun _ => ?_
      refine (groups_yields (listed.mono fun _ => List.mem_append_right _)).bind fun _ => ?_
      refine .pure fun d seeAlso relations topics sections way summary =>
        accounts_of_docs rfl rfl summary way ?_ relations rfl topics seeAlso
      rwa [List.flatMap_append, declarations_mentions]
  | tutorial t =>
      refine (inlines_yields (running.mono fun _ => List.mem_append_left _)).bind fun _ => ?_
      refine way.bind fun _ => ?_
      have chapters : r.Admits S store (t.sections.flatMap TutorialSection.links) :=
        running.mono fun _ => List.mem_append_right _
      refine (Renders.mapM fun s member => chapter_yields (chapters.mono fun _ inside =>
        List.mem_flatMap.mpr ⟨s, member, inside⟩)).bind fun _ => ?_
      refine .pure fun d chapters way summary => ⟨?_, ?_, List.forall_mem_nil _⟩
      · simp only [Rendered.Page.mentions, List.flatMap_nil, List.append_nil]
        exact List.forall_mem_append.mpr
          ⟨List.forall_mem_append.mpr ⟨summary.backed, way⟩, chapters.backed⟩
      · refine List.forall_mem_append.mpr ⟨summary.tells.mono ?_, chapters.tells.mono ?_⟩
        · exact fun m inside => by simp [Rendered.Page.mentions, inside]
        · exact fun m inside => by simp [Rendered.Page.mentions, inside]

end Whole

end Renderer

end Concordance
