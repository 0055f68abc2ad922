import Mathlib
import Concordance.Document
import Concordance.Proofs.Link.Parsed

/-! # Links in prose that was read

No link of prose is resolved yet, and whatever link it still has to resolve was read
from a text. This holds of running text and is kept while blocks are sorted into the
parts of a page, so it holds of every document.
-/

namespace Concordance

/-- A link that is not resolved and, if it is still to be, was read from a text. -/
structure Link.Written (l : Link) : Prop where
  parsed : ∀ link, l.destination = .unresolved link → link.Parsed
  unresolved : ∀ address, l.destination ≠ .resolved address

theorem Link.written_of_parsed {link : WrittenLink} (parsed : link.Parsed) (title : Option String) :
    (Link.written link title).Written where
  parsed other same := by
    cases same
    exact parsed
  unresolved address same := by cases same

theorem Inline.ofMark_written (mark : Mark) : ∀ l ∈ (Inline.ofMark mark).links, l.Written := by
  intro l member
  cases mark with
  | symbol name =>
      simp only [ofMark] at member
      split at member
      · rename_i link read
        cases List.mem_singleton.mp member
        exact Link.written_of_parsed ⟨_, read⟩ _
      · cases member
  | topic target =>
      simp only [ofMark] at member
      split at member
      · rename_i link read
        cases List.mem_singleton.mp member
        exact Link.written_of_parsed ⟨_, read⟩ _
      · cases member
  | bracket title destination =>
      simp only [ofMark] at member
      split at member
      · rename_i link read
        split at member
        · cases List.mem_singleton.mp member
          exact ⟨fun other same => (nomatch same), fun address same => (nomatch same)⟩
        · cases List.mem_singleton.mp member
          exact Link.written_of_parsed ⟨_, read⟩ _
      · cases member
  | code body => cases member

theorem Inlines.ofText_written (s : String) : ∀ l ∈ Inlines.links (Inlines.ofText s), l.Written := by
  intro l member
  simp only [Inlines.links, Inlines.ofText, List.mem_flatMap, List.mem_map] at member
  obtain ⟨_, ⟨span, _, rfl⟩, inside⟩ := member
  cases span with
  | plain body => cases inside
  | marked mark => exact Inline.ofMark_written mark l inside

theorem Block.ofOutline_written (b : Markdown.OutlineBlock) :
    ∀ l ∈ (Block.ofOutline b).links, l.Written := by
  intro l member
  cases b with
  | code text info => cases member
  | heading level text => cases member
  | list ordered items =>
      simp only [ofOutline, Block.links, List.mem_flatMap, List.mem_map] at member
      obtain ⟨_, ⟨item, _, rfl⟩, inside⟩ := member
      exact Inlines.ofText_written item l inside
  | paragraph text => exact Inlines.ofText_written text l member

namespace Markup

variable {m : Markup} {part : Part}

def Written (m : Markup) : Prop := ∀ l ∈ m.links, l.Written

theorem written_iff : m.Written ↔
    (∀ l ∈ Inlines.links m.summary, l.Written) ∧ (∀ l ∈ m.discussion.flatMap Block.links, l.Written) ∧
      (∀ l ∈ m.topics.flatMap LinkGroup.links, l.Written) ∧
      ∀ l ∈ m.seeAlso.flatMap LinkGroup.links, l.Written := by
  simp only [Written, Markup.links, List.forall_mem_append, and_assoc]

theorem empty_written : ({} : Markup).Written := by
  intro l member
  cases member

theorem mem_links_extend {extension : Markup} {l : Link} (member : l ∈ (m.extend extension).links) :
    l ∈ m.links ∨ l ∈ extension.links := by
  have summary (inside : l ∈ Inlines.links (m.extend extension).summary) :
      l ∈ Inlines.links m.summary ∨ l ∈ Inlines.links extension.summary := by
    simp only [extend] at inside
    split at inside
    · exact .inr inside
    · exact .inl inside
  simp only [Markup.links, List.mem_append] at member ⊢
  simp only [extend, List.flatMap_append, List.mem_append] at member summary
  tauto

theorem editGroups_written {f : List LinkGroup → List LinkGroup}
    (kept : ∀ gs : List LinkGroup, (∀ l ∈ gs.flatMap LinkGroup.links, l.Written) →
      ∀ l ∈ (f gs).flatMap LinkGroup.links, l.Written)
    (own : m.Written) : (m.editGroups part f).Written := by
  rw [written_iff] at own ⊢
  obtain ⟨summary, discussion, topics, seeAlso⟩ := own
  cases part with
  | seeAlso => exact ⟨summary, discussion, topics, kept _ seeAlso⟩
  | topics => exact ⟨summary, discussion, kept _ topics, seeAlso⟩
  | discussion => exact ⟨summary, discussion, kept _ topics, seeAlso⟩

theorem addToLast_written {title : String} {links : List Link} (added : ∀ l ∈ links, l.Written)
    (gs : List LinkGroup) (own : ∀ l ∈ gs.flatMap LinkGroup.links, l.Written) :
    ∀ l ∈ (addToLast title links gs).flatMap LinkGroup.links, l.Written := by
  fun_induction addToLast title links gs with
  | case1 => simpa using added
  | case2 g =>
      simp only [List.flatMap_cons, List.flatMap_nil, List.append_nil, List.forall_mem_append] at own ⊢
      exact ⟨own, added⟩
  | case3 g rest _ ih =>
      simp only [List.flatMap_cons, List.forall_mem_append] at own ⊢
      exact ⟨own.1, ih own.2⟩

theorem sortBlock_written (first : Bool) (b : Markdown.OutlineBlock) (own : m.Written) :
    (sortBlock (m, part) first b).1.Written := by
  have toDiscussion :
      ({ m with discussion := m.discussion ++ [Block.ofOutline b] } : Markup).Written := by
    rw [written_iff] at own ⊢
    refine ⟨own.1, ?_, own.2.2⟩
    simp only [List.flatMap_append, List.flatMap_cons, List.flatMap_nil, List.append_nil,
      List.forall_mem_append]
    exact ⟨own.2.1, Block.ofOutline_written b⟩
  cases b with
  | heading level text =>
      simp only [sortBlock]
      split
      · exact own
      · split
        · exact editGroups_written (fun gs kept => by simpa using kept) own
        · exact toDiscussion
  | list ordered items =>
      simp only [sortBlock]
      split
      · exact toDiscussion
      · refine editGroups_written (addToLast_written fun l member => ?_) own
        obtain ⟨item, _, inside⟩ := List.mem_flatMap.mp member
        exact Inlines.ofText_written item l inside
  | paragraph text =>
      simp only [sortBlock]
      split
      · exact own
      · split
        · rw [written_iff] at own ⊢
          exact ⟨Inlines.ofText_written text, own.2⟩
        · exact toDiscussion
  | code text info => exact toDiscussion

theorem ofOutline_written (blocks : List Markdown.OutlineBlock) : (ofOutline blocks).Written := by
  cases blocks with
  | nil => exact empty_written
  | cons b rest =>
      exact List.foldlRecOn (motive := fun state : Markup × Part => state.1.Written) rest _
        (sortBlock_written true b empty_written) fun _ own b _ => sortBlock_written false b own

theorem ofComment_written (source : String) : (ofComment source).Written :=
  ofOutline_written _

end Markup

namespace Tutorial

variable {t : Tutorial}

theorem editLast_written {f : TutorialSection → TutorialSection}
    (kept : ∀ s : TutorialSection, (∀ l ∈ s.links, l.Written) → ∀ l ∈ (f s).links, l.Written)
    (ss : List TutorialSection) (own : ∀ l ∈ ss.flatMap TutorialSection.links, l.Written) :
    ∀ l ∈ (editLast f ss).flatMap TutorialSection.links, l.Written := by
  fun_induction editLast f ss with
  | case1 => exact own
  | case2 s =>
      simp only [List.flatMap_cons, List.flatMap_nil, List.append_nil] at own ⊢
      exact kept s own
  | case3 s rest _ ih =>
      simp only [List.flatMap_cons, List.forall_mem_append] at own ⊢
      exact ⟨own.1, ih own.2⟩

theorem sortBlock_written (first : Bool) (b : Markdown.OutlineBlock)
    (own : ∀ l ∈ t.links, l.Written) : ∀ l ∈ (sortBlock t first b).links, l.Written := by
  simp only [Tutorial.links, List.forall_mem_append] at own
  have toContent : ∀ l ∈ (Tutorial.links { t with
      sections := editLast (fun s => { s with content := s.content ++ [Block.ofOutline b] })
        t.sections }), l.Written := by
    simp only [Tutorial.links, List.forall_mem_append]
    refine ⟨own.1, editLast_written (fun s inside => ?_) _ own.2⟩
    simp only [TutorialSection.links, List.flatMap_append, List.forall_mem_append, List.flatMap_cons,
      List.flatMap_nil, List.append_nil] at inside ⊢
    exact ⟨⟨inside.1, Block.ofOutline_written b⟩, inside.2⟩
  cases b with
  | heading level text =>
      simp only [sortBlock]
      split
      · simp only [Tutorial.links, List.forall_mem_append, List.flatMap_append]
        refine ⟨own.1, own.2, ?_⟩
        simp [TutorialSection.links]
      · rename_i absurdity
        cases absurdity
      · rename_i absurdity
        cases absurdity
      · exact toContent
  | list ordered items =>
      cases ordered with
      | true =>
          simp only [sortBlock, Tutorial.links, List.forall_mem_append]
          refine ⟨own.1, editLast_written (fun s inside => ?_) _ own.2⟩
          simp only [TutorialSection.links, List.flatMap_append, List.forall_mem_append] at inside ⊢
          refine ⟨inside.1, inside.2, fun l member => ?_⟩
          simp only [List.mem_flatMap, List.mem_map] at member
          obtain ⟨_, ⟨item, _, rfl⟩, here⟩ := member
          exact Inlines.ofText_written item l here
      | false => exact toContent
  | paragraph text =>
      simp only [sortBlock]
      split
      · simp only [Tutorial.links, List.forall_mem_append]
        exact ⟨Inlines.ofText_written text, own.2⟩
      · exact toContent
  | code text info => exact toContent

theorem ofOutline_written (title : String) (blocks : List Markdown.OutlineBlock) :
    ∀ l ∈ (ofOutline title blocks).links, l.Written := by
  have none : ∀ l ∈ ({ title } : Tutorial).links, l.Written := by
    intro l member
    cases member
  cases blocks with
  | nil => exact none
  | cons b rest =>
      exact List.foldlRecOn (motive := fun t : Tutorial => ∀ l ∈ t.links, l.Written) rest _
        (sortBlock_written true b none) fun _ own b _ => sortBlock_written false b own

end Tutorial

/-- What documents turn out to be: links in them were read, and prose was sorted from blocks. -/
inductive ParsedDocument.Made : ParsedDocument → Prop where
  | redirect {title : String} {target : WrittenLink} (read : target.Parsed) :
      Made (.page (.redirect title target))
  | tutorial (title : String) (body : List Markdown.OutlineBlock) :
      Made (.page (.tutorial (Tutorial.ofOutline title body)))
  | article (title : String) (body : List Markdown.OutlineBlock) :
      Made (.page (.article title (Markup.ofOutline body)))
  | extension {target : WrittenLink} (read : target.Parsed) (body : List Markdown.OutlineBlock) :
      Made (.extension target (Markup.ofOutline body))

theorem Document.made_of_ofBlocks {d : Document} {blocks : List Markdown.OutlineBlock}
    {result : ParsedDocument} (made : d.ofBlocks blocks = .ok result) : result.Made := by
  simp only [ofBlocks] at made
  split at made
  · split at made
    · rename_i link read
      cases made
      exact .redirect ⟨_, read⟩
    · cases made
  · split at made
    · cases made
    · split at made
      · cases made
        exact .tutorial _ _
      · split at made
        · split at made
          · rename_i link read
            cases made
            exact .extension ⟨_, read⟩ _
          · cases made
        · cases made
          exact .article _ _

theorem Document.page_of_ofBlocks {d : Document} {blocks : List Markdown.OutlineBlock}
    {content : Content} (made : d.ofBlocks blocks = .ok (.page content)) :
    (∀ l ∈ content.links, l.Written) ∧ content.symbol? = none ∧
      ∀ title target, content = .redirect title target → target.Parsed := by
  cases made_of_ofBlocks made with
  | redirect read =>
      refine ⟨fun l member => absurd member List.not_mem_nil, rfl, fun title target same => ?_⟩
      cases same
      exact read
  | tutorial title body =>
      exact ⟨Tutorial.ofOutline_written _ _, rfl, fun _ _ same => nomatch same⟩
  | article title body => exact ⟨Markup.ofOutline_written _, rfl, fun _ _ same => nomatch same⟩

theorem Document.extension_of_ofBlocks {d : Document} {blocks : List Markdown.OutlineBlock}
    {target : WrittenLink} {docs : Markup} (made : d.ofBlocks blocks = .ok (.extension target docs)) :
    docs.Written := by
  cases made_of_ofBlocks made with
  | extension read body => exact Markup.ofOutline_written body

end Concordance
