import Mathlib
import Concordance.Content
import Concordance.Proofs.Lockstep

/-! # Links and what stands around them

Where links stand in what a page holds, and contents that differ in nothing but their
links. Going through the links of a page reaches every place where a link stands, and
leaves everything around the links as it is.
-/

namespace Concordance

section Shows

variable {l : Link}

inductive Block.Shows (l : Link) : Block → Prop
  | paragraph {xs : Inlines} (inside : .link l ∈ xs) : Shows l (.paragraph xs)
  | item {ordered : Bool} {items : List Inlines} {item : Inlines} (member : item ∈ items)
      (inside : .link l ∈ item) : Shows l (.list ordered items)

inductive Markup.Shows (l : Link) (m : Markup) : Prop
  | summary (inside : .link l ∈ m.summary)
  | discussion {b : Block} (member : b ∈ m.discussion) (inside : b.Shows l)
  | topic {g : LinkGroup} (member : g ∈ m.topics) (inside : l ∈ g.links)
  | seeAlso {g : LinkGroup} (member : g ∈ m.seeAlso) (inside : l ∈ g.links)

/-- The link stands somewhere in what a page holds. -/
inductive Content.Shows (l : Link) : Content → Prop
  | article {title : String} {docs : Markup} (inside : docs.Shows l) : Shows l (.article title docs)
  | docs {s : SymbolContent} (inside : s.docs.Shows l) : Shows l (.symbol s)
  | relation {s : SymbolContent} {relation : Relation} (member : relation ∈ s.relations)
      (target : relation.target = l) : Shows l (.symbol s)
  | summary {t : Tutorial} (inside : .link l ∈ t.summary) : Shows l (.tutorial t)
  | content {t : Tutorial} {s : TutorialSection} {b : Block} (member : s ∈ t.sections)
      (within : b ∈ s.content) (inside : b.Shows l) : Shows l (.tutorial t)
  | step {t : Tutorial} {s : TutorialSection} {step : Inlines} (member : s ∈ t.sections)
      (within : step ∈ s.steps) (inside : .link l ∈ step) : Shows l (.tutorial t)

theorem Inlines.mem_links {xs : Inlines} : l ∈ xs.links ↔ .link l ∈ xs := by
  rw [links, List.mem_flatMap]
  constructor
  · rintro ⟨i, member, inside⟩
    cases i with
    | link other => rwa [List.mem_singleton.mp inside]
    | code | text => cases inside
  · intro member
    exact ⟨_, member, List.mem_singleton_self l⟩

theorem Block.shows_iff {b : Block} : b.Shows l ↔ l ∈ b.links := by
  constructor
  · intro shows
    cases shows with
    | paragraph inside => exact Inlines.mem_links.mpr inside
    | item member inside => exact List.mem_flatMap.mpr ⟨_, member, Inlines.mem_links.mpr inside⟩
  · intro listed
    cases b with
    | code | heading => cases listed
    | list ordered items =>
        obtain ⟨item, member, inside⟩ := List.mem_flatMap.mp listed
        exact .item member (Inlines.mem_links.mp inside)
    | paragraph xs => exact .paragraph (Inlines.mem_links.mp listed)

theorem Markup.shows_iff {m : Markup} : m.Shows l ↔ l ∈ m.links := by
  simp only [links, List.mem_append, List.mem_flatMap, ← Block.shows_iff, Inlines.mem_links]
  constructor
  · intro shows
    cases shows with
    | summary inside => exact .inl (.inl (.inl inside))
    | discussion member inside => exact .inl (.inl (.inr ⟨_, member, inside⟩))
    | topic member inside => exact .inl (.inr ⟨_, member, inside⟩)
    | seeAlso member inside => exact .inr ⟨_, member, inside⟩
  · rintro (((inside | ⟨b, member, inside⟩) | ⟨g, member, inside⟩) | ⟨g, member, inside⟩)
    · exact .summary inside
    · exact .discussion member inside
    · exact .topic member inside
    · exact .seeAlso member inside

theorem Content.shows_iff {c : Content} : c.Shows l ↔ l ∈ c.links := by
  cases c with
  | article title docs =>
      rw [links, ← Markup.shows_iff]
      exact ⟨fun | .article inside => inside, .article⟩
  | redirect title target => exact ⟨fun shows => (nomatch shows), fun listed => (nomatch listed)⟩
  | symbol s =>
      rw [links, List.mem_append, List.mem_map, ← Markup.shows_iff]
      constructor
      · intro shows
        cases shows with
        | docs inside => exact .inl inside
        | relation member target => exact .inr ⟨_, member, target⟩
      · rintro (inside | ⟨relation, member, target⟩)
        · exact .docs inside
        · exact .relation member target
  | tutorial t =>
      simp only [links, Tutorial.links, TutorialSection.links, List.mem_append, List.mem_flatMap,
        ← Block.shows_iff, Inlines.mem_links]
      constructor
      · intro shows
        cases shows with
        | summary inside => exact .inl inside
        | content member within inside => exact .inr ⟨_, member, .inl ⟨_, within, inside⟩⟩
        | step member within inside => exact .inr ⟨_, member, .inr ⟨_, within, inside⟩⟩
      · rintro (inside | ⟨s, member, ⟨b, within, inside⟩ | ⟨step, within, inside⟩⟩)
        · exact .summary inside
        · exact .content member within inside
        · exact .step member within inside

end Shows

/-- Elements that are the same, or are links of which the second may stand for the first. -/
inductive Inline.Relinked (R : Link → Link → Prop) : Inline → Inline → Prop
  | code (text : String) : Relinked R (.code text) (.code text)
  | link {l after : Link} (follows : R l after) : Relinked R (.link l) (.link after)
  | text (text : String) : Relinked R (.text text) (.text text)

def Inlines.Relinked (R : Link → Link → Prop) : Inlines → Inlines → Prop :=
  List.Forall₂ (Inline.Relinked R)

inductive Block.Relinked (R : Link → Link → Prop) : Block → Block → Prop
  | code (text : String) (language : Option String) :
      Relinked R (.code text language) (.code text language)
  | heading (anchor : String) (level : Nat) (text : String) :
      Relinked R (.heading anchor level text) (.heading anchor level text)
  | list {ordered : Bool} {items after : List Inlines}
      (each : List.Forall₂ (Inlines.Relinked R) items after) :
      Relinked R (.list ordered items) (.list ordered after)
  | paragraph {xs after : Inlines} (inside : xs.Relinked R after) :
      Relinked R (.paragraph xs) (.paragraph after)

structure LinkGroup.Relinked (R : Link → Link → Prop) (g after : LinkGroup) : Prop where
  title : after.title = g.title
  links : List.Forall₂ R g.links after.links

structure Markup.Relinked (R : Link → Link → Prop) (m after : Markup) : Prop where
  summary : m.summary.Relinked R after.summary
  discussion : List.Forall₂ (Block.Relinked R) m.discussion after.discussion
  topics : List.Forall₂ (LinkGroup.Relinked R) m.topics after.topics
  seeAlso : List.Forall₂ (LinkGroup.Relinked R) m.seeAlso after.seeAlso

structure Relation.Relinked (R : Link → Link → Prop) (relation after : Relation) : Prop where
  kind : after.kind = relation.kind
  target : R relation.target after.target

structure SymbolContent.Relinked (R : Link → Link → Prop) (s after : SymbolContent) : Prop where
  same : after = { s with docs := after.docs, relations := after.relations }
  docs : s.docs.Relinked R after.docs
  relations : List.Forall₂ (Relation.Relinked R) s.relations after.relations

structure TutorialSection.Relinked (R : Link → Link → Prop) (s after : TutorialSection) :
    Prop where
  same : after = { s with content := after.content, steps := after.steps }
  content : List.Forall₂ (Block.Relinked R) s.content after.content
  steps : List.Forall₂ (Inlines.Relinked R) s.steps after.steps

structure Tutorial.Relinked (R : Link → Link → Prop) (t after : Tutorial) : Prop where
  title : after.title = t.title
  summary : t.summary.Relinked R after.summary
  sections : List.Forall₂ (TutorialSection.Relinked R) t.sections after.sections

/-- Contents of pages that differ in links only. -/
inductive Content.Relinked (R : Link → Link → Prop) : Content → Content → Prop
  | article {title : String} {docs after : Markup} (inside : docs.Relinked R after) :
      Relinked R (.article title docs) (.article title after)
  | redirect (title : String) (target : WrittenLink) :
      Relinked R (.redirect title target) (.redirect title target)
  | symbol {s after : SymbolContent} (inside : s.Relinked R after) :
      Relinked R (.symbol s) (.symbol after)
  | tutorial {t after : Tutorial} (inside : t.Relinked R after) :
      Relinked R (.tutorial t) (.tutorial after)

section Relinked

variable {σ : Type} {R : Link → Link → Prop} {f : Link → StateM σ Link}
  (each : ∀ l s, R l ((f l).run s).1)
include each

theorem Inline.traverseLinks_relinked (i : Inline) (s : σ) :
    i.Relinked R ((i.traverseLinks f).run s).1 := by
  cases i with
  | code text => exact .code text
  | link l => exact .link (each l s)
  | text text => exact .text text

theorem Inlines.traverseLinks_relinked (xs : Inlines) (s : σ) :
    xs.Relinked R ((xs.traverseLinks f).run s).1 :=
  forall₂_mapM (Inline.traverseLinks_relinked each) xs s

theorem Block.traverseLinks_relinked (b : Block) (s : σ) :
    b.Relinked R ((b.traverseLinks f).run s).1 := by
  cases b with
  | code text language => exact .code text language
  | heading anchor level text => exact .heading anchor level text
  | list ordered items =>
      exact .list (forall₂_mapM (Inlines.traverseLinks_relinked each) items s)
  | paragraph xs => exact .paragraph (Inlines.traverseLinks_relinked each xs s)

theorem LinkGroup.traverseLinks_relinked (g : LinkGroup) (s : σ) :
    g.Relinked R ((g.traverseLinks f).run s).1 :=
  ⟨rfl, forall₂_mapM each g.links s⟩

theorem Markup.traverseLinks_relinked (m : Markup) (s : σ) :
    m.Relinked R ((m.traverseLinks f).run s).1 where
  summary := Inlines.traverseLinks_relinked each m.summary s
  discussion := forall₂_mapM (Block.traverseLinks_relinked each) m.discussion _
  topics := forall₂_mapM (LinkGroup.traverseLinks_relinked each) m.topics _
  seeAlso := forall₂_mapM (LinkGroup.traverseLinks_relinked each) m.seeAlso _

theorem TutorialSection.traverseLinks_relinked (t : TutorialSection) (s : σ) :
    t.Relinked R ((t.traverseLinks f).run s).1 where
  same := rfl
  content := forall₂_mapM (Block.traverseLinks_relinked each) t.content s
  steps := forall₂_mapM (Inlines.traverseLinks_relinked each) t.steps _

theorem Content.traverseRelation_relinked (relation : Relation) (s : σ) :
    relation.Relinked R ((traverseRelation f relation).run s).1 :=
  ⟨rfl, each relation.target s⟩

/-- What is done to the links of a page leaves all else on the page as it is. -/
theorem Content.traverseLinks_relinked (c : Content) (s : σ) :
    c.Relinked R ((c.traverseLinks f).run s).1 := by
  cases c with
  | article title docs => exact .article (Markup.traverseLinks_relinked each docs s)
  | redirect title target => exact .redirect title target
  | symbol content =>
      exact .symbol {
        same := rfl
        docs := Markup.traverseLinks_relinked each content.docs s
        relations := forall₂_mapM (traverseRelation_relinked each) content.relations _ }
  | tutorial t =>
      exact .tutorial {
        title := rfl
        summary := Inlines.traverseLinks_relinked each t.summary s
        sections := forall₂_mapM (TutorialSection.traverseLinks_relinked each) t.sections _ }

end Relinked

section Pure

variable {m : Type → Type} [Monad m] [LawfulMonad m] {f : Link → m Link}

theorem mapM_eq_pure {α : Type} {g : α → m α} {l : List α} (each : ∀ a ∈ l, g a = pure a) :
    l.mapM g = pure l := by
  induction l with
  | nil => rfl
  | cons a l ih =>
      simp only [List.forall_mem_cons] at each
      simp [each.1, ih each.2]

theorem Inlines.traverseLinks_eq_pure {xs : Inlines} (each : ∀ l ∈ xs.links, f l = pure l) :
    xs.traverseLinks f = pure xs := by
  refine mapM_eq_pure fun i member => ?_
  cases i with
  | code | text => rfl
  | link l => simp [Inline.traverseLinks, each l (mem_links.mpr member)]

theorem Block.traverseLinks_eq_pure {b : Block} (each : ∀ l ∈ b.links, f l = pure l) :
    b.traverseLinks f = pure b := by
  cases b with
  | code | heading => rfl
  | list ordered items =>
      have kept : items.mapM (Inlines.traverseLinks f) = pure items :=
        mapM_eq_pure fun item member => Inlines.traverseLinks_eq_pure fun l inside =>
          each l (List.mem_flatMap.mpr ⟨item, member, inside⟩)
      simp [traverseLinks, kept]
  | paragraph xs => simp [traverseLinks, Inlines.traverseLinks_eq_pure each]

theorem Blocks.mapM_eq_pure {bs : List Block} (each : ∀ l ∈ bs.flatMap Block.links, f l = pure l) :
    bs.mapM (Block.traverseLinks f) = pure bs :=
  Concordance.mapM_eq_pure fun b member => Block.traverseLinks_eq_pure fun l inside =>
    each l (List.mem_flatMap.mpr ⟨b, member, inside⟩)

theorem LinkGroups.mapM_eq_pure {gs : List LinkGroup}
    (each : ∀ l ∈ gs.flatMap LinkGroup.links, f l = pure l) :
    gs.mapM (LinkGroup.traverseLinks f) = pure gs := by
  refine Concordance.mapM_eq_pure fun g member => ?_
  have kept : g.links.mapM f = pure g.links :=
    Concordance.mapM_eq_pure fun l inside => each l (List.mem_flatMap.mpr ⟨g, member, inside⟩)
  simp [LinkGroup.traverseLinks, kept]

theorem Markup.traverseLinks_eq_pure {markup : Markup} (each : ∀ l ∈ markup.links, f l = pure l) :
    markup.traverseLinks f = pure markup := by
  simp only [links, List.forall_mem_append] at each
  obtain ⟨⟨⟨summary, discussion⟩, topics⟩, seeAlso⟩ := each
  simp [traverseLinks, Inlines.traverseLinks_eq_pure summary, Blocks.mapM_eq_pure discussion,
    LinkGroups.mapM_eq_pure topics, LinkGroups.mapM_eq_pure seeAlso]

theorem TutorialSection.traverseLinks_eq_pure {s : TutorialSection}
    (each : ∀ l ∈ s.links, f l = pure l) : s.traverseLinks f = pure s := by
  simp only [links, List.forall_mem_append] at each
  have steps : s.steps.mapM (Inlines.traverseLinks f) = pure s.steps :=
    mapM_eq_pure fun step member => Inlines.traverseLinks_eq_pure fun l inside =>
      each.2 l (List.mem_flatMap.mpr ⟨step, member, inside⟩)
  simp [traverseLinks, Blocks.mapM_eq_pure each.1, steps]

theorem Content.traverseLinks_eq_pure {c : Content} (each : ∀ l ∈ c.links, f l = pure l) :
    c.traverseLinks f = pure c := by
  cases c with
  | article title docs => simp [traverseLinks, Markup.traverseLinks_eq_pure each]
  | redirect title target => rfl
  | symbol s =>
      simp only [links, List.forall_mem_append, List.forall_mem_map] at each
      have relations : s.relations.mapM (traverseRelation f) = pure s.relations :=
        mapM_eq_pure fun relation member => by simp [traverseRelation, each.2 relation member]
      simp [traverseLinks, Markup.traverseLinks_eq_pure each.1, relations]
  | tutorial t =>
      simp only [links, Tutorial.links, List.forall_mem_append] at each
      have sections : t.sections.mapM (TutorialSection.traverseLinks f) = pure t.sections :=
        mapM_eq_pure fun s member => TutorialSection.traverseLinks_eq_pure fun l inside =>
          each.2 l (List.mem_flatMap.mpr ⟨s, member, inside⟩)
      simp [traverseLinks, Tutorial.traverseLinks, Inlines.traverseLinks_eq_pure each.1, sections]

end Pure

end Concordance
