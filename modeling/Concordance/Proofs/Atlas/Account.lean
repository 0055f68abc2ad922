import Mathlib
import Concordance.Proofs.Atlas.Descriptions
import Concordance.Proofs.Atlas.Indexes
import Concordance.Proofs.Atlas.Subjects

/-! # Nothing is lost while an atlas is built

Every symbol and every document that is handed to a build comes out as a page, as prose
of a page that is there, or as a problem. Each phase of a build handles what it is given
one by one, so that the problems of the whole build can be counted.
-/

namespace Concordance

/-- Whether anything was found, and if so whether it is the page of a symbol. -/
def Lookup.verdict : Lookup → Option Bool
  | .ambiguous _ => some false
  | .found p => some p.content.symbol?.isSome
  | .notFound => none

namespace Atlas

section Edits

variable {f : Content → Content} (a : Atlas) (k : Address)

theorem fitsReading_editContent : (a.editContent k f).fitsReading = a.fitsReading := by
  funext reading address
  rw [fitsReading, get?_editContent, fitsReading]
  cases a.pages.get? address with
  | none => rfl
  | some page => by_cases here : address = k <;> simp [here]

theorem fitting_editContent (candidates : List Address) (readings : List Component.Reading) :
    (a.editContent k f).fitting candidates readings = a.fitting candidates readings := by
  induction readings with
  | nil => rfl
  | cons reading readings ih => rw [fitting, fitsReading_editContent, ih, fitting]

theorem follow_editContent (candidates : List Address) (path : List String) :
    (a.editContent k f).follow candidates path = a.follow candidates path := by
  fun_induction follow a candidates path with
  | case1 => rfl
  | case2 candidates component => exact fitting_editContent a k candidates _
  | case3 candidates component rest more ih =>
      rw [follow.eq_3 _ _ _ _ more, matching, fitting_editContent]
      exact ih

theorem verdict_editContent (symbols : SymbolEdit f) (scope : Option Address)
    (path : List String) :
    ((a.editContent k f).lookup scope path).verdict = (a.lookup scope path).verdict := by
  have start : (a.editContent k f).startingPages scope = a.startingPages scope := by
    cases scope <;> rfl
  have kept (content : Content) : (f content).symbol?.isSome = content.symbol?.isSome := by
    rcases symbols content with ⟨s, t, before, after⟩ | same
    · rw [after, before]
      rfl
    · rw [same]
  rw [lookup, start, follow_editContent, lookup]
  split
  · rfl
  · rw [get?_editContent]
    rename_i address _
    cases a.pages.get? address with
    | none => rfl
    | some page =>
        simp only [Option.map_some, Lookup.verdict]
        split
        · rw [kept]
        · rfl
  · rfl

end Edits

end Atlas

namespace AtlasBuild

variable {b : AtlasBuild} {root : Address}

section Handled

/-- What was declined, and what got a page. Modules are not counted, for they come by themselves. -/
def handled (b : AtlasBuild) : Nat :=
  b.problems.length + b.atlas.pageList.countP fun p => p.kind != .module

theorem handled_decline (message source : String) :
    (b.decline message source).handled = b.handled + 1 := by
  simp only [handled, decline, List.length_append, List.length_singleton]
  omega

theorem pageList_insert? {a c : Atlas} {p : Page} (inserted : a.insert? p = some c) :
    c.pageList.Perm (p :: a.pageList) := by
  rw [Atlas.pageList, Atlas.pages_insert? inserted]
  exact (Assoc.perm_put (Atlas.insert?_fresh inserted) p).map Prod.snd

theorem handled_insert {p : Page} (kind : p.kind ≠ .module) :
    (b.insert p).handled = b.handled + 1 := by
  rw [insert]
  split
  · rename_i inserted
    have counted : (p.kind != .module) = true := bne_iff_ne.mpr kind
    simp only [handled, (pageList_insert? inserted).countP_eq, List.countP_cons, if_pos counted]
    omega
  · simp only [handled, List.length_append, List.length_singleton]
    omega

theorem handled_insertAll (ps : List Placement) :
    (b.insertAll ps).handled = b.handled + ps.length := by
  induction ps generalizing b with
  | nil => rfl
  | cons p ps ih =>
      have kind : p.page.kind ≠ .module := by
        intro same
        cases same
      rw [insertAll, List.foldl_cons, ← insertAll, ih, handled_insert kind, List.length_cons]
      omega

theorem handled_addModules (language : String) (modules : List String) :
    (modules.foldl (addModule language) b).handled = b.handled := by
  refine List.foldlRecOn (motive := fun c : AtlasBuild => c.handled = b.handled) modules _ rfl
    fun c same module _ => Eq.trans ?_ same
  rw [addModule]
  split
  · rename_i inserted
    rw [handled, (pageList_insert? inserted).countP_eq,
      List.countP_cons_of_neg (by simp [modulePage])]
    rfl
  · rfl

theorem handled_placeLevel (level : List GatheredSymbol) :
    (b.placeLevel level).handled = b.handled + level.length := by
  have account := placementsOn_account b level
  have same : (level.foldl assign (b, [])).1.atlas = b.atlas := (b.overloads_assigned level).atlas
  rw [placeLevel_eq, handled_insertAll, handled, handled, same]
  omega

theorem handled_placeSymbols (symbols : List GatheredSymbol) :
    (b.placeSymbols symbols).handled = b.handled + symbols.length := by
  have levels (levels : List (List GatheredSymbol)) (b : AtlasBuild) :
      (levels.foldl placeLevel b).handled = b.handled + levels.flatten.length := by
    induction levels generalizing b with
    | nil => rfl
    | cons level levels ih =>
        rw [List.foldl_cons, ih, handled_placeLevel, List.flatten_cons, List.length_append]
        omega
  rw [placeSymbols, levels, List.flatten_splitBy]

theorem handled_editContent (address : Address) (f : Content → Content) :
    handled { b with atlas := b.atlas.editContent address f } = b.handled := by
  have kinds (a : Atlas) : a.pageList.countP (fun p => p.kind != .module) =
      (a.pageList.map Page.kind).countP (· != .module) := by
    rw [List.countP_map]
    rfl
  have same : (b.atlas.editContent address f).pageList.map Page.kind =
      b.atlas.pageList.map Page.kind := by
    rw [Atlas.pageList, Atlas.editContent_pages, Assoc.values, List.map_map, List.map_map,
      Atlas.pageList, Assoc.values, List.map_map]
    refine List.map_congr_left fun entry _ => ?_
    simp only [Function.comp_apply]
    split <;> rfl
  rw [handled, kinds, same, ← kinds, handled]

theorem handled_relate (relations : List GatheredRelation) :
    (relations.foldl relate b).handled = b.handled := by
  refine List.foldlRecOn (motive := fun c : AtlasBuild => c.handled = b.handled) relations _ rfl
    fun c same r _ => Eq.trans ?_ same
  rw [relate]
  split
  · exact handled_editContent _ _
  · rfl

end Handled

section Documents

def extensionOf? (d : Document) : Except MalformedDocument ParsedDocument → Option Extension
  | .error _ => none
  | .ok (.page _) => none
  | .ok (.extension target docs) => some ⟨d.path, target, docs⟩

def extension? (d : Document) : Option Extension := extensionOf? d d.parse

theorem addDocument_account (root : Address) (state : AtlasBuild × List Extension) (d : Document) :
    (addDocument root state d).2 = state.2 ++ (extension? d).toList ∧
      (addDocument root state d).1.handled + (extension? d).toList.length =
        state.1.handled + 1 := by
  rw [addDocument, extension?]
  generalize d.parse = parsed
  rcases parsed with m | content | ⟨target, docs⟩
  · exact ⟨(List.append_nil _).symm, handled_decline _ _⟩
  · have kind : (documentPage root d content).kind ≠ .module := by
      intro same
      cases content <;> cases same
    refine ⟨(List.append_nil _).symm, ?_⟩
    rw [addParsed, handled_insert kind]
    rfl
  · exact ⟨rfl, rfl⟩

theorem addDocuments_account (root : Address) (documents : List Document)
    (state : AtlasBuild × List Extension) :
    (documents.foldl (addDocument root) state).2 = state.2 ++ documents.filterMap extension? ∧
      (documents.foldl (addDocument root) state).1.handled +
        (documents.filterMap extension?).length = state.1.handled + documents.length := by
  induction documents generalizing state with
  | nil => exact ⟨(List.append_nil _).symm, rfl⟩
  | cons d documents ih =>
      obtain ⟨first, one⟩ := addDocument_account root state d
      obtain ⟨later, rest⟩ := ih (addDocument root state d)
      have split : (d :: documents).filterMap extension? =
          (extension? d).toList ++ documents.filterMap extension? := by
        cases found : extension? d <;> simp [found]
      rw [List.foldl_cons, later, first, split, List.append_assoc]
      refine ⟨rfl, ?_⟩
      rw [List.length_append, List.length_cons]
      omega

/-- Whether what an extension extends is one symbol. -/
def joins (atlas : Atlas) (root : Address) (e : Extension) : Bool :=
  (extended atlas root e.target).verdict == some true

theorem joins_editContent {f : Content → Content} (symbols : Atlas.SymbolEdit f) (a : Atlas)
    (k : Address) : joins (a.editContent k f) root = joins a root := by
  have verdict (atlas : Atlas) (target : WrittenLink) :
      (extended atlas root target).verdict =
        (atlas.lookup none target.components).verdict.or
          (if target.absolute then none
            else (atlas.lookup (some root) target.components).verdict) := by
    rw [extended]
    cases atlas.lookup none target.components with
    | notFound => cases target.absolute <;> rfl
    | ambiguous addresses => rfl
    | found page => rfl
  funext e
  simp only [joins, verdict, Atlas.verdict_editContent a k symbols]

theorem extend_account (root : Address) (b : AtlasBuild) (e : Extension) :
    (extend root b e).handled + (if joins b.atlas root e then 1 else 0) = b.handled + 1 ∧
      joins (extend root b e).atlas root = joins b.atlas root := by
  rw [extend, joins]
  cases extended b.atlas root e.target with
  | found p =>
      obtain ⟨_, _, _, _, _, _, _, content⟩ := p
      cases content with
      | symbol c =>
          exact ⟨congrArg (· + 1) (handled_editContent _ _),
            joins_editContent (Atlas.addDocs_symbolEdit _) _ _⟩
      | article | redirect | tutorial => exact ⟨handled_decline _ _, rfl⟩
  | ambiguous addresses => exact ⟨handled_decline _ _, rfl⟩
  | notFound => exact ⟨handled_decline _ _, rfl⟩

theorem extends_account (root : Address) (extensions : List Extension) (b : AtlasBuild) :
    (extensions.foldl (extend root) b).handled + extensions.countP (joins b.atlas root) =
        b.handled + extensions.length ∧
      joins (extensions.foldl (extend root) b).atlas root = joins b.atlas root := by
  induction extensions generalizing b with
  | nil => exact ⟨rfl, rfl⟩
  | cons e extensions ih =>
      obtain ⟨one, same⟩ := extend_account root b e
      obtain ⟨rest, kept⟩ := ih (extend root b e)
      rw [same] at rest
      rw [List.foldl_cons, List.countP_cons, List.length_cons]
      exact ⟨by omega, kept.trans same⟩

/-- Whether a document extends the page of one symbol. -/
def joinedBy (atlas : Atlas) (root : Address) (d : Document) : Bool :=
  (extension? d).any (joins atlas root)

theorem countP_extensions (atlas : Atlas) (documents : List Document) :
    (documents.filterMap extension?).countP (joins atlas root) =
      documents.countP (joinedBy atlas root) := by
  have any (o : Option Extension) :
      (o.map (joins atlas root)).getD false = o.any (joins atlas root) := by
    cases o <;> rfl
  rw [List.countP_filterMap]
  exact List.countP_congr fun d _ => by rw [any, joinedBy]

theorem handled_addDocuments (root : Address) (b : AtlasBuild) (documents : List Document) :
    (b.addDocuments root documents).handled +
        documents.countP (joinedBy (b.addDocuments root documents).atlas root) =
      b.handled + documents.length := by
  obtain ⟨extensions, pages⟩ := addDocuments_account root documents (b, [])
  obtain ⟨joined, same⟩ := extends_account root (documents.filterMap extension?)
    (documents.foldl (addDocument root) (b, [])).1
  simp only at pages
  rw [addDocuments_eq, extensions, List.nil_append, ← countP_extensions, same]
  omega

end Documents

end AtlasBuild

namespace Atlas

variable (settings : Settings) (inputs : Inputs)

/-- Symbols and documents end as pages, as prose of pages, or as problems. -/
theorem build_handled :
    (build settings inputs).2.length +
        (build settings inputs).1.pageList.countP (fun p => p.kind != .module) +
        inputs.documents.countP
          (AtlasBuild.joinedBy (build settings inputs).1 (home settings inputs)) =
      (gathering settings inputs).problems.length + (gathering settings inputs).inOrder.length +
        inputs.documents.length := by
  let g := gathering settings inputs
  let start := foundation settings inputs
  let related := g.relations.foldl AtlasBuild.relate (start.placeSymbols g.inOrder)
  let b := [AtlasBuild.homeModule settings g].foldl (AtlasBuild.addModule settings.language) related
  let documents := inputs.documents.mergeSort fun d e => FilePath.le d.path e.path
  have modules : start.handled = g.problems.length := AtlasBuild.handled_addModules _ _
  have symbols : b.handled = start.handled + g.inOrder.length := by
    rw [AtlasBuild.handled_addModules, AtlasBuild.handled_relate, AtlasBuild.handled_placeSymbols]
  have last := AtlasBuild.handled_addDocuments (home settings inputs) b documents
  have sorted : documents.Perm inputs.documents := List.mergeSort_perm _ _
  rw [sorted.countP_eq, sorted.length_eq, symbols, modules] at last
  exact last

theorem countP_not_module (l : List Page) :
    l.countP (fun p => p.kind != .module) = l.countP (fun p => p.kind == .symbol) +
      l.countP fun p => p.kind ∈ [PageKind.article, .tutorial, .redirect] := by
  induction l with
  | nil => rfl
  | cons p l ih =>
      simp only [List.countP_cons, ih]
      cases p.kind <;> simp <;> omega

def descriptions : List SymbolDescription :=
  inputs.symbolGraphs.flatMap fun file => file.graph.symbols

/-- The symbols that are described without a flaw, each with a language of such a description. -/
def spoken : List (String × String) := Gathering.spoken (descriptions inputs)

theorem gathering_records :
    (gathering settings inputs).Records (descriptions inputs) :=
  Gathering.ofFiles_records _ _

/-- The page of a symbol is that of a description without a flaw, in just the languages in which
there are such descriptions. -/
theorem symbol_of_build {page : Page} (member : page ∈ (build settings inputs).1.pageList)
    (kind : page.kind = .symbol) :
    ∃ content, page.content = .symbol content ∧
      (∃ s ∈ descriptions inputs, s.flaw? = none ∧ s.precise = content.precise) ∧
      ∀ language, language ∈ content.languages ↔ ∃ s ∈ descriptions inputs,
        s.flaw? = none ∧ s.precise = content.precise ∧ s.language = language := by
  have found := (build_wellFormed settings inputs).get?_address member
  obtain ⟨precise, shown, _⟩ := (build_indexed settings inputs).symbols found kind
  obtain ⟨content, symbol, rfl⟩ := Option.map_eq_some_iff.mp shown
  have symbol := Content.symbol?_eq_some.mp symbol
  have subject : page.subject? = some (content.precise, content.languages) :=
    Page.subject?_eq_some.mpr ⟨kind, content, symbol, rfl, rfl⟩
  have placed := build_subjectAt? settings inputs page.address
  rw [subjectAt?, found, Option.bind_some, subject] at placed
  obtain ⟨p, first, same⟩ := Option.map_eq_some_iff.mp placed.symm
  obtain ⟨precise, languages⟩ := Prod.mk.inj same
  obtain ⟨described, _, spoken⟩ := (gathering_records settings inputs).inOrder
    (Gathering.ofFiles_sound _ _) (symbol_of_placements (List.mem_of_find?_eq_some first))
  rw [precise] at described spoken
  rw [languages] at spoken
  exact ⟨content, symbol, described, spoken⟩

theorem eq_of_precise {p q : Page} (one : p ∈ (build settings inputs).1.pageList)
    (other : q ∈ (build settings inputs).1.pageList) (kind : p.kind = .symbol)
    (kind' : q.kind = .symbol) (same : p.precise? = q.precise?) : p = q := by
  have wf := build_wellFormed settings inputs
  have ix := build_indexed settings inputs
  have here := wf.get?_address one
  have there := wf.get?_address other
  obtain ⟨precise, shown, listed⟩ := ix.symbols here kind
  obtain ⟨precise', shown', listed'⟩ := ix.symbols there kind'
  rw [same, shown'] at shown
  rw [Option.some.inj shown, listed] at listed'
  rw [Option.some.inj listed', there] at here
  exact (Option.some.inj here).symm

/-- Nothing is lost silently while an atlas is built. The problems are one for every description
with a flaw, every other one that repeats a language of its symbol, every symbol without a page, and
every document that neither makes a page nor extends that of one symbol. The pages of symbols are of
different symbols of descriptions without a flaw, in all their languages. -/
theorem build_account :
    ((build settings inputs).2.length : ℤ) =
        (descriptions inputs).countP (fun s => s.flaw?.isSome) +
          Gathering.repeats [] (spoken inputs) +
          (((spoken inputs).map Prod.fst).toFinset.card -
            (build settings inputs).1.pageList.countP fun p => p.kind == .symbol) +
          (inputs.documents.length -
            (build settings inputs).1.pageList.countP
              (fun p => p.kind ∈ [PageKind.article, .tutorial, .redirect]) -
            inputs.documents.countP
              (AtlasBuild.joinedBy (build settings inputs).1 (home settings inputs))) ∧
      (∀ p ∈ (build settings inputs).1.pageList, p.kind = .symbol →
        ∃ content, p.content = .symbol content ∧
          content.precise ∈ ((spoken inputs).map Prod.fst).toFinset ∧
          ∀ language, language ∈ content.languages ↔
            (content.precise, language) ∈ spoken inputs) ∧
      ∀ p ∈ (build settings inputs).1.pageList, ∀ q ∈ (build settings inputs).1.pageList,
        p.kind = .symbol → q.kind = .symbol → p.precise? = q.precise? → p = q := by
  refine ⟨?_, ?_, ?_⟩
  · have records := gathering_records settings inputs
    have handled := build_handled settings inputs
    rw [countP_not_module, records.declined,
      records.length_inOrder (Gathering.ofFiles_sound _ _), ← spoken] at handled
    omega
  · intro p member kind
    obtain ⟨content, shown, ⟨s, described, flawless, precise⟩, languages⟩ :=
      symbol_of_build settings inputs member kind
    refine ⟨content, shown, ?_, ?_⟩
    · have member : (s.precise, s.language) ∈ spoken inputs :=
        Gathering.mem_spoken.mpr ⟨s, described, flawless, rfl, rfl⟩
      exact List.mem_toFinset.mpr (List.mem_map.mpr ⟨_, member, precise⟩)
    · intro language
      rw [languages, spoken, Gathering.mem_spoken]
  · intro p one q other kind kind' same
    exact eq_of_precise settings inputs one other kind kind' same

end Atlas

end Concordance
