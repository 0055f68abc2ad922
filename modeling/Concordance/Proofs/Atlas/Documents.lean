import Mathlib
import Concordance.Proofs.Atlas.Account

/-! # Documents are taken or declined as a whole

A document that is declined leaves a problem and nothing else. One that makes a page adds
this page and its entries in the indexes, and an extension adds to the prose of one symbol.
Documents are added one after the other, extensions last.
-/

namespace Concordance

/-- Prose as it is after more was added: a summary stays if there was one, and all else goes on as
it was. -/
structure Markup.Extended (before added after : Markup) : Prop where
  kept : before.summary ≠ [] → after.summary = before.summary
  filled : before.summary = [] → after.summary = added.summary
  discussion : after.discussion = before.discussion ++ added.discussion
  topics : after.topics = before.topics ++ added.topics
  seeAlso : after.seeAlso = before.seeAlso ++ added.seeAlso

theorem Markup.extend_extended (before added : Markup) :
    Extended before added (before.extend added) where
  kept some := if_neg (by simpa using some)
  filled none := if_pos (by simpa using none)
  discussion := rfl
  topics := rfl
  seeAlso := rfl

namespace Atlas

variable {a b : Atlas} {p page : Page} {content : SymbolContent} {docs : Markup}

/-- One page is added, with its entries in the indexes. -/
structure Adds (a : Atlas) (p : Page) (b : Atlas) : Prop where
  bundle : b.bundle = a.bundle
  new : a.pages.get? p.address = none
  pages : ∀ address,
    b.pages.get? address = if address = p.address then some p else a.pages.get? address
  pageList : b.pageList.Perm (p :: a.pageList)
  byHumanPath : ∀ text, b.byHumanPath.get? text =
    if text = p.humanText then some ((a.byHumanPath.get? text).getD [] ++ [p.address])
    else a.byHumanPath.get? text
  below : ∀ above, b.below.get? above =
    if some above = p.parent then some ((a.below.get? above).getD [] ++ [p.address])
    else a.below.get? above
  byPrecise : b.byPrecise = a.byPrecise
  roots : b.roots = a.roots

/-- The prose of one page of a symbol is added to, and nothing else is touched. -/
structure Merges (a : Atlas) (page : Page) (content : SymbolContent) (docs : Markup)
    (b : Atlas) : Prop where
  bundle : b.bundle = a.bundle
  there : a.pages.get? page.address = some page
  symbol : page.content = .symbol content
  pages : ∃ prose, content.docs.Extended docs prose ∧ ∀ address, b.pages.get? address =
    if address = page.address then some { page with content := .symbol { content with docs := prose } }
    else a.pages.get? address
  addresses : b.pages.keys = a.pages.keys
  byHumanPath : b.byHumanPath = a.byHumanPath
  below : b.below = a.below
  byPrecise : b.byPrecise = a.byPrecise
  roots : b.roots = a.roots

theorem Adds.of_insert? (inserted : a.insert? p = some b) (plain : p.content.symbol? = none)
    {holder : Address} (held : p.parent = some holder) : a.Adds p b where
  bundle := bundle_insert? inserted
  new := get?_fresh inserted
  pages := get?_insert? inserted
  pageList := AtlasBuild.pageList_insert? inserted
  byHumanPath text := by
    rw [byHumanPath_insert? inserted, append, Assoc.get?_put]
    by_cases same : text = p.humanText
    · simp [same]
    · simp [same]
  below above := by
    rw [below_insert? inserted, held]
    simp only [append, Assoc.get?_put, Option.some.injEq, beq_iff_eq]
    by_cases same : above = holder
    · simp [same]
    · simp [same]
  byPrecise := by rw [byPrecise_insert? inserted, plain]
  roots := by rw [roots_insert? inserted, held]

theorem merges_editContent (there : a.pages.get? page.address = some page)
    (symbol : page.content = .symbol content) :
    a.Merges page content docs (a.editContent page.address (AtlasBuild.addDocs docs)) where
  bundle := rfl
  there := there
  symbol := symbol
  pages := by
    refine ⟨content.docs.extend docs, Markup.extend_extended _ _, fun address => ?_⟩
    rw [get?_editContent]
    by_cases same : address = page.address
    · simp [same, there, symbol, AtlasBuild.addDocs]
    · simp [same]
  addresses := by
    rw [editContent_pages, Assoc.keys, List.map_map]
    rfl
  byHumanPath := rfl
  below := rfl
  byPrecise := rfl
  roots := rfl

/-- Every page stands under its own address. -/
def Own (a : Atlas) : Prop :=
  ∀ address page, a.pages.get? address = some page → page.address = address

end Atlas

namespace AtlasBuild

variable {b c : AtlasBuild} {root : Address} {d : Document}

/-- Why a document is declined. -/
inductive Refuses (root : Address) (b : AtlasBuild) (d : Document) : Prop where
  | malformed {m : MalformedDocument} (parsed : d.parse = .error m)
  /-- The address of its page is taken. -/
  | taken {content : Content} {page : Page} (parsed : d.parse = .ok (.page content))
      (taken : b.atlas.pages.get? (documentPage root d content).address = some page)
  /-- It extends no single page of a symbol. -/
  | stray {target : WrittenLink} {docs : Markup} (parsed : d.parse = .ok (.extension target docs))
      (nothing : ∀ page content, extended b.atlas root target = .found page →
        page.content ≠ .symbol content)

theorem not_refuses_of_page {content : Content} (parsed : d.parse = .ok (.page content))
    (new : b.atlas.pages.get? (documentPage root d content).address = none) :
    ¬ Refuses root b d := by
  intro refused
  cases refused with
  | malformed other => cases parsed.symm.trans other
  | taken other taken =>
      cases parsed.symm.trans other
      cases new.symm.trans taken
  | stray other => cases parsed.symm.trans other

theorem not_refuses_of_extension {target : WrittenLink} {docs : Markup} {page : Page}
    {content : SymbolContent} (parsed : d.parse = .ok (.extension target docs))
    (found : extended b.atlas root target = .found page) (shown : page.content = .symbol content) :
    ¬ Refuses root b d := by
  intro refused
  cases refused with
  | malformed other => cases parsed.symm.trans other
  | taken other => cases parsed.symm.trans other
  | stray other nothing =>
      cases parsed.symm.trans other
      exact nothing page content found shown

/-- What becomes of a document: it is declined exactly if there is a reason to. -/
inductive Turn (root : Address) (b : AtlasBuild) (d : Document) (c : AtlasBuild) : Prop where
  | declined {report : Problem} (refused : Refuses root b d) (source : report.source = some d.path)
      (problems : c.problems = b.problems ++ [report]) (atlas : c.atlas = b.atlas)
  | added {content : Content} (accepted : ¬ Refuses root b d)
      (parsed : d.parse = .ok (.page content)) (plain : content.symbol? = none)
      (problems : c.problems = b.problems)
      (atlas : b.atlas.Adds (documentPage root d content) c.atlas)
  | merged {target : WrittenLink} {docs : Markup} {page : Page} {content : SymbolContent}
      (accepted : ¬ Refuses root b d) (parsed : d.parse = .ok (.extension target docs))
      (found : extended b.atlas root target = .found page) (problems : c.problems = b.problems)
      (atlas : b.atlas.Merges page content docs c.atlas)

/-- What becomes of documents, one after the other. -/
inductive Run (root : Address) : AtlasBuild → List Document → AtlasBuild → Prop where
  | done (b : AtlasBuild) : Run root b [] b
  | turn {b c e : AtlasBuild} {d : Document} {rest : List Document} (first : Turn root b d c)
      (later : Run root c rest e) : Run root b (d :: rest) e

theorem Run.append {e : AtlasBuild} {one other : List Document} (first : Run root b one c)
    (later : Run root c other e) : Run root b (one ++ other) e := by
  induction first with
  | done => exact later
  | turn first _ ih => exact .turn first (ih later)

theorem addDocument_turn (state : AtlasBuild × List Extension) (none : extension? d = none) :
    Turn root state.1 d (addDocument root state d).1 := by
  rw [addDocument]
  rw [extension?] at none
  cases parsed : d.parse with
  | error m => exact .declined (.malformed parsed) rfl rfl rfl
  | ok made =>
      rw [parsed] at none
      cases made with
      | extension target docs => cases none
      | page content =>
          have plain : content.symbol? = Option.none := (Document.page_of_ofBlocks parsed).2.1
          rw [addParsed, insert]
          cases inserted : state.1.atlas.insert? (documentPage root d content) with
          | some atlas =>
              have accepted := not_refuses_of_page parsed (Atlas.get?_fresh inserted)
              exact .added accepted parsed plain rfl (.of_insert? inserted plain rfl)
          | none =>
              obtain ⟨page, taken⟩ := Option.isSome_iff_exists.mp (Atlas.insert?_none inserted)
              exact .declined (.taken parsed taken) rfl rfl rfl

theorem addDocument_waits (state : AtlasBuild × List Extension) {e : Extension}
    (made : extension? d = some e) : (addDocument root state d).1 = state.1 := by
  rw [addDocument]
  rw [extension?] at made
  generalize d.parse = parsed at made ⊢
  rcases parsed with m | content | ⟨target, docs⟩
  · cases made
  · cases made
  · rfl

theorem extended_found {atlas : Atlas} (own : atlas.Own) {target : WrittenLink} {page : Page}
    (found : extended atlas root target = .found page) :
    atlas.pages.get? page.address = some page := by
  have looked {scope : Option Address} (found : atlas.lookup scope target.components = .found page) :
      atlas.pages.get? page.address = some page := by
    obtain ⟨address, _, there⟩ := Atlas.lookup_found.mp found
    rwa [own address page there]
  rw [extended] at found
  split at found
  · split at found
    · cases found
    · exact looked found
  · exact looked found

theorem extend_turn (own : b.atlas.Own) {e : Extension} (made : extension? d = some e) :
    Turn root b d (extend root b e) := by
  rw [extension?] at made
  cases parsed : d.parse with
  | error m =>
      rw [parsed] at made
      cases made
  | ok result =>
      rw [parsed] at made
      cases result with
      | page content => cases made
      | extension target docs =>
          cases made
          rw [extend]
          split
          · rename_i page found
            split
            · rename_i content shown
              exact .merged (not_refuses_of_extension parsed found shown) parsed found rfl
                (Atlas.merges_editContent (extended_found own found) shown)
            · rename_i other
              refine .declined (.stray parsed fun p content same => ?_) rfl rfl rfl
              cases found.symm.trans same
              exact other content
          · rename_i found
            refine .declined (.stray parsed fun _ _ same => ?_) rfl rfl rfl
            cases found.symm.trans same
          · rename_i found
            refine .declined (.stray parsed fun _ _ same => ?_) rfl rfl rfl
            cases found.symm.trans same

theorem Turn.own (turn : Turn root b d c) (own : b.atlas.Own) : c.atlas.Own := by
  intro address page found
  cases turn with
  | declined _ _ _ atlas => exact own address page (atlas ▸ found)
  | added _ _ _ _ atlas =>
      rw [atlas.pages] at found
      split at found
      · rename_i here
        cases found
        exact here.symm
      · exact own address page found
  | merged _ _ _ _ atlas =>
      obtain ⟨prose, _, pages⟩ := atlas.pages
      rw [pages] at found
      split at found
      · rename_i here
        cases found
        exact here.symm
      · exact own address page found

theorem Run.own {documents : List Document} (run : Run root b documents c) (own : b.atlas.Own) :
    c.atlas.Own := by
  induction run with
  | done => exact own
  | turn first _ ih => exact ih (first.own own)

theorem run_addDocument (root : Address) (documents : List Document)
    (state : AtlasBuild × List Extension) :
    Run root state.1 (documents.filter fun d => (extension? d).isNone)
      (documents.foldl (addDocument root) state).1 := by
  -- The extensions put aside so far are part of the state, but no other document's turn sees them.
  induction documents generalizing state with
  | nil => exact .done _
  | cons d documents ih =>
      rw [List.foldl_cons]
      cases made : extension? d with
      | none =>
          rw [List.filter_cons_of_pos (by simp [made])]
          exact .turn (addDocument_turn state made) (ih _)
      | some e =>
          rw [List.filter_cons_of_neg (by simp [made]), ← addDocument_waits state made]
          exact ih _

theorem run_extend (documents : List Document) (own : b.atlas.Own) :
    Run root b (documents.filter fun d => (extension? d).isSome)
      ((documents.filterMap extension?).foldl (extend root) b) := by
  induction documents generalizing b with
  | nil => exact .done _
  | cons d documents ih =>
      cases made : extension? d with
      | none =>
          rw [List.filter_cons_of_neg (by simp [made]), List.filterMap_cons_none made]
          exact ih own
      | some e =>
          have turn : Turn root b d (extend root b e) := extend_turn own made
          rw [List.filter_cons_of_pos (by simp [made]), List.filterMap_cons_some made,
            List.foldl_cons]
          exact .turn turn (ih (turn.own own))

/-- Documents are added one after the other, extensions last. -/
theorem addDocuments_run (own : b.atlas.Own) (documents : List Document) :
    Run root b
      ((documents.filter fun d => (extension? d).isNone) ++
        documents.filter fun d => (extension? d).isSome)
      (b.addDocuments root documents) := by
  have pages := run_addDocument root documents (b, [])
  rw [addDocuments_eq, (addDocuments_account root documents (b, [])).1]
  exact pages.append (run_extend documents (pages.own own))

end AtlasBuild

namespace Atlas

/-- What is built of symbols alone. -/
def grounded (settings : Settings) (files : List SymbolGraphFile) : AtlasBuild where
  atlas := (build settings { symbolGraphs := files }).1
  problems := (build settings { symbolGraphs := files }).2

theorem build_eq (settings : Settings) (inputs : Inputs) :
    build settings inputs =
      let b := (grounded settings inputs.symbolGraphs).addDocuments (home settings inputs)
        (inputs.documents.mergeSort fun d e => FilePath.le d.path e.path)
      (b.atlas, b.problems) := by
  rw [grounded, build, build, List.mergeSort_nil]
  rfl

/-- Whatever was built of symbols, and whatever documents are then added, each of them is declined
exactly if there is a reason to, with one problem and nothing else, or else adds one page with its
entries in the indexes or adds to the prose of one symbol. -/
theorem documents_run (settings : Settings) (files : List SymbolGraphFile)
    (documents : List Document) :
    AtlasBuild.Run (home settings { symbolGraphs := files }) (grounded settings files)
      ((documents.filter fun d => (AtlasBuild.extension? d).isNone) ++
        documents.filter fun d => (AtlasBuild.extension? d).isSome)
      ((grounded settings files).addDocuments (home settings { symbolGraphs := files }) documents) :=
  AtlasBuild.addDocuments_run
    (fun _ _ found => (build_wellFormed settings { symbolGraphs := files }).own found) documents

end Atlas

end Concordance
