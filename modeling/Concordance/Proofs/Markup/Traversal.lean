import Mathlib
import Concordance.Content
import Concordance.Proofs.Lockstep

/-! # Going through links

Doing something to every link of a page does it to the links that the page lists, in
their order, and to nothing else. So what is alike for each link is alike for the page,
and a property of the state that is kept for each link is kept for the page.
-/

namespace Concordance

section Links

variable {m : Type → Type} [Monad m] [LawfulMonad m] {α : Type} (f : Link → m Link)

theorem flatMap_mapM {g : α → m α} {links : α → List Link}
    (law : ∀ a, links <$> g a = (links a).mapM f) (l : List α) :
    List.flatMap links <$> l.mapM g = (l.flatMap links).mapM f := by
  induction l with
  | nil => simp
  | cons a l ih => simp [List.mapM_append, ← law, ← ih]

theorem Inline.links_traverseLinks (i : Inline) :
    Inline.links <$> i.traverseLinks f = i.links.mapM f := by
  cases i <;> simp [traverseLinks, links]

theorem Inlines.links_traverseLinks (xs : Inlines) :
    Inlines.links <$> xs.traverseLinks f = xs.links.mapM f :=
  flatMap_mapM f (Inline.links_traverseLinks f) xs

theorem Block.links_traverseLinks (b : Block) :
    Block.links <$> b.traverseLinks f = b.links.mapM f := by
  cases b with
  | code | heading => simp [traverseLinks, links]
  | list ordered items =>
      rw [links, ← flatMap_mapM f (Inlines.links_traverseLinks f)]
      simp [traverseLinks, links]
  | paragraph inlines =>
      rw [links, ← Inlines.links_traverseLinks]
      simp [traverseLinks, links]

theorem LinkGroup.links_traverseLinks (g : LinkGroup) :
    LinkGroup.links <$> g.traverseLinks f = g.links.mapM f := by
  simp [traverseLinks]

theorem Markup.links_traverseLinks (markup : Markup) :
    Markup.links <$> markup.traverseLinks f = markup.links.mapM f := by
  simp only [links, List.mapM_append, ← flatMap_mapM f (LinkGroup.links_traverseLinks f),
    ← flatMap_mapM f (Block.links_traverseLinks f), ← Inlines.links_traverseLinks]
  simp [traverseLinks, links]

theorem TutorialSection.links_traverseLinks (s : TutorialSection) :
    TutorialSection.links <$> s.traverseLinks f = s.links.mapM f := by
  simp only [links, List.mapM_append, ← flatMap_mapM f (Inlines.links_traverseLinks f),
    ← flatMap_mapM f (Block.links_traverseLinks f)]
  simp [traverseLinks, links]

theorem Tutorial.links_traverseLinks (t : Tutorial) :
    Tutorial.links <$> t.traverseLinks f = t.links.mapM f := by
  simp only [links, List.mapM_append, ← flatMap_mapM f (TutorialSection.links_traverseLinks f),
    ← Inlines.links_traverseLinks]
  simp [traverseLinks, links]

theorem targets_traverseRelation (relations : List Relation) :
    List.map Relation.target <$> relations.mapM (Content.traverseRelation f) =
      (relations.map Relation.target).mapM f := by
  induction relations with
  | nil => simp
  | cons r relations ih => simp [Content.traverseRelation, ← ih]

theorem Content.links_traverseLinks (c : Content) :
    Content.links <$> c.traverseLinks f = c.links.mapM f := by
  cases c with
  | article title docs =>
      rw [links, ← Markup.links_traverseLinks]
      simp [traverseLinks, links]
  | redirect title target => simp [traverseLinks, links]
  | symbol s =>
      rw [links, List.mapM_append, ← Markup.links_traverseLinks, ← targets_traverseRelation]
      simp [traverseLinks, links]
  | tutorial t =>
      rw [links, ← Tutorial.links_traverseLinks]
      simp [traverseLinks, links]

end Links

section Alike

variable {σ τ : Type} {R : σ → τ → Prop} {f : Link → StateM σ Link} {g : Link → StateM τ Link}

theorem Inline.traverseLinks_alike {i : Inline} (each : ∀ l ∈ i.links, Alike R (f l) (g l)) :
    Alike R (i.traverseLinks f) (i.traverseLinks g) := by
  cases i with
  | code | text => exact .pure _
  | link l => exact (each l (List.mem_singleton_self l)).bind fun _ => .pure _

theorem Inlines.traverseLinks_alike {xs : Inlines} (each : ∀ l ∈ xs.links, Alike R (f l) (g l)) :
    Alike R (xs.traverseLinks f) (xs.traverseLinks g) :=
  .mapM fun _ member => Inline.traverseLinks_alike fun l inside =>
    each l (List.mem_flatMap.mpr ⟨_, member, inside⟩)

theorem Block.traverseLinks_alike {b : Block} (each : ∀ l ∈ b.links, Alike R (f l) (g l)) :
    Alike R (b.traverseLinks f) (b.traverseLinks g) := by
  cases b with
  | code | heading => exact .pure _
  | list ordered items =>
      refine Alike.bind (.mapM fun item member => ?_) fun _ => .pure _
      exact Inlines.traverseLinks_alike fun l inside =>
        each l (List.mem_flatMap.mpr ⟨_, member, inside⟩)
  | paragraph inlines => exact (Inlines.traverseLinks_alike each).bind fun _ => .pure _

theorem LinkGroup.traverseLinks_alike {group : LinkGroup}
    (each : ∀ l ∈ group.links, Alike R (f l) (g l)) :
    Alike R (group.traverseLinks f) (group.traverseLinks g) :=
  (Alike.mapM each).bind fun _ => .pure _

theorem Blocks.mapM_alike {blocks : List Block}
    (each : ∀ l ∈ blocks.flatMap Block.links, Alike R (f l) (g l)) :
    Alike R (blocks.mapM (Block.traverseLinks f)) (blocks.mapM (Block.traverseLinks g)) :=
  .mapM fun _ member => Block.traverseLinks_alike fun l inside =>
    each l (List.mem_flatMap.mpr ⟨_, member, inside⟩)

theorem LinkGroups.mapM_alike {groups : List LinkGroup}
    (each : ∀ l ∈ groups.flatMap LinkGroup.links, Alike R (f l) (g l)) :
    Alike R (groups.mapM (LinkGroup.traverseLinks f)) (groups.mapM (LinkGroup.traverseLinks g)) :=
  .mapM fun _ member => LinkGroup.traverseLinks_alike fun l inside =>
    each l (List.mem_flatMap.mpr ⟨_, member, inside⟩)

theorem Markup.traverseLinks_alike {m : Markup} (each : ∀ l ∈ m.links, Alike R (f l) (g l)) :
    Alike R (m.traverseLinks f) (m.traverseLinks g) := by
  simp only [Markup.links, List.mem_append] at each
  refine (Inlines.traverseLinks_alike fun l inside => each l (.inl (.inl (.inl inside)))).bind
    fun _ => ?_
  refine (Blocks.mapM_alike fun l inside => each l (.inl (.inl (.inr inside)))).bind fun _ => ?_
  refine (LinkGroups.mapM_alike fun l inside => each l (.inl (.inr inside))).bind fun _ => ?_
  exact (LinkGroups.mapM_alike fun l inside => each l (.inr inside)).bind fun _ => .pure _

theorem TutorialSection.traverseLinks_alike {s : TutorialSection}
    (each : ∀ l ∈ s.links, Alike R (f l) (g l)) :
    Alike R (s.traverseLinks f) (s.traverseLinks g) := by
  simp only [TutorialSection.links, List.mem_append] at each
  refine (Blocks.mapM_alike fun l inside => each l (.inl inside)).bind fun _ => ?_
  refine Alike.bind (.mapM fun step member => ?_) fun _ => .pure _
  exact Inlines.traverseLinks_alike fun l inside =>
    each l (.inr (List.mem_flatMap.mpr ⟨_, member, inside⟩))

theorem Tutorial.traverseLinks_alike {t : Tutorial} (each : ∀ l ∈ t.links, Alike R (f l) (g l)) :
    Alike R (t.traverseLinks f) (t.traverseLinks g) := by
  simp only [Tutorial.links, List.mem_append] at each
  refine (Inlines.traverseLinks_alike fun l inside => each l (.inl inside)).bind fun _ => ?_
  refine Alike.bind (.mapM fun s member => ?_) fun _ => .pure _
  exact TutorialSection.traverseLinks_alike fun l inside =>
    each l (.inr (List.mem_flatMap.mpr ⟨_, member, inside⟩))

theorem Content.traverseLinks_alike {c : Content} (each : ∀ l ∈ c.links, Alike R (f l) (g l)) :
    Alike R (c.traverseLinks f) (c.traverseLinks g) := by
  cases c with
  | article title docs => exact (Markup.traverseLinks_alike each).bind fun _ => .pure _
  | redirect title target => exact .pure _
  | symbol s =>
      simp only [Content.links, List.mem_append, List.mem_map] at each
      refine (Markup.traverseLinks_alike fun l inside => each l (.inl inside)).bind fun _ => ?_
      refine Alike.bind (.mapM fun relation member => ?_) fun _ => .pure _
      exact (each _ (.inr ⟨relation, member, rfl⟩)).bind fun _ => .pure _
  | tutorial t => exact (Tutorial.traverseLinks_alike each).bind fun _ => .pure _

end Alike

variable {σ : Type} {I : σ → Prop} {f : Link → StateM σ Link}

theorem Content.traverseLinks_keeps {c : Content} (each : ∀ l ∈ c.links, Keeps I (f l)) :
    Keeps I (c.traverseLinks f) :=
  keeps_iff_alike.mpr (traverseLinks_alike fun l member => keeps_iff_alike.mp (each l member))

end Concordance
