import Mathlib
import Concordance.Proofs.Lists
import Concordance.Proofs.Markup.Written
import Concordance.Proofs.Text.SlugForm

/-! # Names of headings

The headings of prose and the sections of tutorials are named by the slugs of their
texts. Sorting blocks into the parts of a page makes no other names, so in whatever a
document or a comment turns out to be every name is its own slug.
-/

namespace Concordance

theorem Block.slug_anchor {b : Markdown.OutlineBlock} {anchor : String}
    (named : (Block.ofOutline b).anchor? = some anchor) : Text.slug anchor = anchor := by
  cases b with
  | heading level text =>
      cases named
      exact Text.slug_slug text
  | code | list | paragraph => cases named

namespace Markup

variable {m : Markup} {part : Part} {anchor : String}

/-- Prose whose headings have slugs for names. -/
def Anchored (m : Markup) : Prop := ∀ anchor ∈ m.anchors, Text.slug anchor = anchor

theorem empty_anchored : ({} : Markup).Anchored := by
  intro anchor member
  cases member

theorem editGroups_anchors (f : List LinkGroup → List LinkGroup) :
    (m.editGroups part f).anchors = m.anchors := by
  cases part <;> rfl

theorem mem_anchors_sortBlock (first : Bool) (b : Markdown.OutlineBlock)
    (member : anchor ∈ (sortBlock (m, part) first b).1.anchors) :
    anchor ∈ m.anchors ∨ (Block.ofOutline b).anchor? = some anchor := by
  have toDiscussion (member : anchor ∈
      ({ m with discussion := m.discussion ++ [Block.ofOutline b] } : Markup).anchors) :
      anchor ∈ m.anchors ∨ (Block.ofOutline b).anchor? = some anchor := by
    simpa [anchors, or_and_right, exists_or] using member
  cases b with
  | heading level text =>
      simp only [sortBlock] at member
      split at member
      · exact .inl member
      · split at member
        · exact .inl (editGroups_anchors _ ▸ member)
        · exact toDiscussion member
  | list ordered items =>
      simp only [sortBlock] at member
      split at member
      · exact toDiscussion member
      · exact .inl (editGroups_anchors _ ▸ member)
  | paragraph text =>
      simp only [sortBlock] at member
      split at member
      · exact .inl member
      · split at member
        · exact .inl member
        · exact toDiscussion member
  | code text info => exact toDiscussion member

theorem mem_anchors_ofOutline {blocks : List Markdown.OutlineBlock}
    (member : anchor ∈ (ofOutline blocks).anchors) :
    ∃ b ∈ blocks, (Block.ofOutline b).anchor? = some anchor := by
  cases blocks with
  | nil => cases member
  | cons b rest =>
      rcases exists_of_foldl_first (P := fun state : Markup × Part => anchor ∈ state.1.anchors)
        (f := sortBlock) (fun _ => mem_anchors_sortBlock) member with nothing | named
      · cases nothing
      · exact named

theorem ofOutline_anchored (blocks : List Markdown.OutlineBlock) : (ofOutline blocks).Anchored := by
  intro anchor member
  obtain ⟨b, _, named⟩ := mem_anchors_ofOutline member
  exact Block.slug_anchor named

theorem ofComment_anchored (source : String) : (ofComment source).Anchored :=
  ofOutline_anchored _

end Markup

namespace Tutorial

variable {t : Tutorial} {anchor : String}

theorem mem_anchors_editLast {f : TutorialSection → TutorialSection} {named : Prop}
    (added : ∀ s : TutorialSection, anchor ∈ (f s).anchors → anchor ∈ s.anchors ∨ named)
    {ss : List TutorialSection} (member : anchor ∈ (editLast f ss).flatMap TutorialSection.anchors) :
    anchor ∈ ss.flatMap TutorialSection.anchors ∨ named := by
  fun_induction editLast f ss with
  | case1 => exact .inl member
  | case2 s =>
      simp only [List.flatMap_cons, List.flatMap_nil, List.append_nil] at member ⊢
      exact added s member
  | case3 s rest _ ih =>
      simp only [List.flatMap_cons, List.mem_append, or_assoc] at member ⊢
      exact member.imp_right ih

theorem mem_anchors_sortBlock (first : Bool) (b : Markdown.OutlineBlock)
    (member : anchor ∈ (Content.tutorial (sortBlock t first b)).anchors) :
    anchor ∈ (Content.tutorial t).anchors ∨ (Block.ofOutline b).anchor? = some anchor := by
  have toContent (member : anchor ∈ (Content.tutorial { t with
      sections := editLast (fun s => { s with content := s.content ++ [Block.ofOutline b] })
        t.sections }).anchors) :
      anchor ∈ (Content.tutorial t).anchors ∨ (Block.ofOutline b).anchor? = some anchor := by
    refine mem_anchors_editLast (fun s inside => ?_) member
    simpa [TutorialSection.anchors, or_and_right, exists_or, or_assoc] using inside
  cases b with
  | heading level text =>
      simp only [sortBlock] at member
      split at member
      · rename_i same
        cases same
        simp only [Content.anchors, List.flatMap_append, List.mem_append] at member
        rcases member with before | new
        · exact .inl before
        · have same : anchor = Text.slug text := by simpa [TutorialSection.anchors] using new
          exact .inr (congrArg some same.symm)
      · rename_i absurdity
        cases absurdity
      · rename_i absurdity
        cases absurdity
      · exact toContent member
  | list ordered items =>
      cases ordered with
      | true =>
          have kept (s : TutorialSection) (inside : anchor ∈ TutorialSection.anchors
              { s with steps := s.steps ++ items.map Inlines.ofText }) :
              anchor ∈ s.anchors ∨ (Block.ofOutline (.list true items)).anchor? = some anchor :=
            .inl inside
          exact mem_anchors_editLast kept member
      | false => exact toContent member
  | paragraph text =>
      simp only [sortBlock] at member
      split at member
      · exact .inl member
      · exact toContent member
  | code text info => exact toContent member

theorem mem_anchors_ofOutline {title : String} {blocks : List Markdown.OutlineBlock}
    (member : anchor ∈ (Content.tutorial (ofOutline title blocks)).anchors) :
    ∃ b ∈ blocks, (Block.ofOutline b).anchor? = some anchor := by
  cases blocks with
  | nil => cases member
  | cons b rest =>
      rcases exists_of_foldl_first (P := fun t : Tutorial => anchor ∈ (Content.tutorial t).anchors)
        (f := sortBlock) (fun _ => mem_anchors_sortBlock) member with nothing | named
      · cases nothing
      · exact named

end Tutorial

def Content.Anchored (content : Content) : Prop :=
  ∀ anchor ∈ content.anchors, Text.slug anchor = anchor

theorem Document.page_anchored {d : Document} {blocks : List Markdown.OutlineBlock}
    {content : Content} (made : d.ofBlocks blocks = .ok (.page content)) : content.Anchored := by
  cases made_of_ofBlocks made with
  | redirect read => exact fun anchor member => absurd member List.not_mem_nil
  | tutorial title body =>
      intro anchor member
      obtain ⟨b, _, named⟩ := Tutorial.mem_anchors_ofOutline member
      exact Block.slug_anchor named
  | article title body => exact Markup.ofOutline_anchored body

theorem Document.extension_anchored {d : Document} {blocks : List Markdown.OutlineBlock}
    {target : WrittenLink} {docs : Markup} (made : d.ofBlocks blocks = .ok (.extension target docs)) :
    docs.Anchored := by
  cases made_of_ofBlocks made with
  | extension read body => exact Markup.ofOutline_anchored body

end Concordance
