import Mathlib
import Concordance.Atlas.Build
import Concordance.Proofs.Assoc
import Concordance.Proofs.Text.FilePath

/-! # Inputs in another order

An atlas does not show in which order documents were handed in, nor in which order a file
describes its symbols. Symbols are gathered under their own identifiers and sorted before
they are placed, documents are sorted by their paths, and every later step depends on the
atlas alone. What was declined is the same, in another order.
-/

namespace Concordance

/-- The same elements, and in another order only if no two of them share a key. -/
def Shuffled {α κ : Type} (key : α → κ) (l m : List α) : Prop :=
  l = m ∨ l.Perm m ∧ (l.map key).Nodup

/-- The same file, its symbols perhaps in another order. -/
structure SymbolGraphFile.Shuffled (f f' : SymbolGraphFile) : Prop where
  path : f.path = f'.path
  module : f.graph.module = f'.graph.module
  edges : f.graph.edges = f'.graph.edges
  symbols : Concordance.Shuffled SymbolDescription.precise f.graph.symbols f'.graph.symbols

/-- The same documents, perhaps in another order, and the same files, in each of which the symbols
may stand in another order. Paths are compared part by part. -/
structure Inputs.Shuffled (inputs inputs' : Inputs) : Prop where
  documents : Concordance.Shuffled (fun d : Document => FilePath.parts d.path)
    inputs.documents inputs'.documents
  files : List.Forall₂ SymbolGraphFile.Shuffled inputs.symbolGraphs inputs'.symbolGraphs

namespace Gathering

variable {g g' g'' : Gathering} {preferred path module : String} {s t : SymbolDescription}

/-- Two gatherings differ in nothing but the order of what was declined. -/
structure Agrees (g g' : Gathering) : Prop where
  modules : g.modules = g'.modules
  symbols : g.symbols = g'.symbols
  relations : g.relations = g'.relations
  problems : g.problems.Perm g'.problems

theorem Agrees.refl (g : Gathering) : g.Agrees g := ⟨rfl, rfl, rfl, .refl _⟩

theorem Agrees.trans (first : g.Agrees g') (second : g'.Agrees g'') : g.Agrees g'' where
  modules := first.modules.trans second.modules
  symbols := first.symbols.trans second.symbols
  relations := first.relations.trans second.relations
  problems := first.problems.trans second.problems

/-- What a description makes of what is known of its symbol, unless it is declined with a
message. -/
def merged (preferred path module : String) (known? : Option GatheredSymbol)
    (s : SymbolDescription) : Except String GatheredSymbol :=
  match s.malformed? path with
  | some m => .error m.message
  | none =>
      match known? with
      | none => .ok {
          content := (SymbolContent.ofDescription module s).preferLanguage preferred
          humanPath := module :: s.path
          source := path }
      | some known =>
          if known.content.languages.contains s.language then
            .error s!"duplicate symbol `{s.precise}` in {s.language}"
          else .ok { known with content := known.content.addPresentation preferred s.presentation }

/-- A description changes nothing but its own symbol, and depends on nothing else. -/
theorem addSymbol_eq (g : Gathering) (s : SymbolDescription) :
    addSymbol preferred path module g s =
      match merged preferred path module (g.symbols.get? s.precise) s with
      | .error message => g.decline message path
      | .ok symbol => { g with symbols := g.symbols.put s.precise symbol } := by
  simp only [addSymbol, merged]
  cases s.malformed? path with
  | some m => rfl
  | none =>
      cases g.symbols.get? s.precise with
      | none => rfl
      | some known =>
          by_cases repeated : known.content.languages.contains s.language = true
          · simp only [if_pos repeated]
          · simp only [if_neg repeated]

theorem addSymbol_rising (rising : Assoc.Rising g.symbols) (s : SymbolDescription) :
    Assoc.Rising (addSymbol preferred path module g s).symbols := by
  rw [addSymbol_eq]
  split
  · exact rising
  · exact rising.put _ _

theorem addSymbol_agrees (agrees : g.Agrees g') (s : SymbolDescription) :
    (addSymbol preferred path module g s).Agrees (addSymbol preferred path module g' s) := by
  rw [addSymbol_eq, addSymbol_eq, agrees.symbols]
  split
  · exact { agrees with problems := agrees.problems.append_right _ }
  · exact { agrees with symbols := rfl }

theorem addSymbol_comm (rising : Assoc.Rising g.symbols) (different : s.precise ≠ t.precise) :
    (addSymbol preferred path module (addSymbol preferred path module g s) t).Agrees
      (addSymbol preferred path module (addSymbol preferred path module g t) s) := by
  have other : t.precise ≠ s.precise := different.symm
  rw [addSymbol_eq g s, addSymbol_eq g t]
  cases first : merged preferred path module (g.symbols.get? s.precise) s with
  | error message =>
      cases second : merged preferred path module (g.symbols.get? t.precise) t with
      | error message' =>
          simp only [addSymbol_eq, decline, first, second]
          refine ⟨rfl, rfl, rfl, ?_⟩
          simp only [List.append_assoc]
          exact (List.Perm.swap _ _ []).append_left _
      | ok symbol' =>
          simp only [addSymbol_eq, decline, first, second, Assoc.get?_put, beq_iff_eq, different,
            if_false]
          exact .refl _
  | ok symbol =>
      cases second : merged preferred path module (g.symbols.get? t.precise) t with
      | error message' =>
          simp only [addSymbol_eq, decline, first, second, Assoc.get?_put, beq_iff_eq, other,
            if_false]
          exact .refl _
      | ok symbol' =>
          simp only [addSymbol_eq, first, second, Assoc.get?_put, beq_iff_eq, different, other,
            if_false]
          exact ⟨rfl, rising.put_comm different symbol symbol', rfl, .refl _⟩

/-- Symbols that are described once each can be described in any order. The induction is on how the
orders are exchanged. -/
theorem addSymbols_perm {l m : List SymbolDescription} (perm : l.Perm m)
    (once : (l.map SymbolDescription.precise).Nodup) (rising : Assoc.Rising g.symbols)
    (agrees : g.Agrees g') :
    (l.foldl (addSymbol preferred path module) g).Agrees
      (m.foldl (addSymbol preferred path module) g') := by
  induction perm generalizing g g' with
  | nil => exact agrees
  | cons s _ ih =>
      exact ih (List.nodup_cons.mp once).2 (addSymbol_rising rising s) (addSymbol_agrees agrees s)
  | swap s t l =>
      have different : t.precise ≠ s.precise := by
        intro same
        simp [same] at once
      have swapped :
          (addSymbol preferred path module (addSymbol preferred path module g t) s).Agrees
            (addSymbol preferred path module (addSymbol preferred path module g' s) t) :=
        (addSymbol_comm rising different).trans (addSymbol_agrees (addSymbol_agrees agrees s) t)
      exact List.foldl_rel swapped fun u _ _ _ agrees => addSymbol_agrees agrees u
  | trans first _ ih ih' =>
      have once' := (first.map SymbolDescription.precise).nodup_iff.mp once
      exact (ih once rising (.refl g)).trans (ih' once' rising agrees)

theorem addEdge_agrees (agrees : g.Agrees g') (e : SymbolEdge) :
    (g.addEdge e).Agrees (g'.addEdge e) := by
  simp only [addEdge, agrees.symbols]
  split
  · split
    · exact { agrees with symbols := rfl }
    · exact agrees
  · split
    · exact { agrees with symbols := rfl, relations := congrArg (· ++ _) agrees.relations }
    · exact agrees

theorem addEdge_rising (rising : Assoc.Rising g.symbols) (e : SymbolEdge) :
    Assoc.Rising (g.addEdge e).symbols := by
  simp only [addEdge]
  split
  · split
    · exact rising.put _ _
    · exact rising
  · split <;> exact rising

theorem addModule_agrees (agrees : g.Agrees g') (module : String) :
    (g.addModule module).Agrees (g'.addModule module) := by
  simp only [addModule, agrees.modules]
  split
  · exact agrees
  · exact { agrees with modules := rfl }

theorem addModule_rising (rising : Assoc.Rising g.symbols) (module : String) :
    Assoc.Rising (g.addModule module).symbols := by
  rw [addModule]
  split <;> exact rising

variable {f f' : SymbolGraphFile}

theorem addFile_agrees (shuffled : f.Shuffled f') (rising : Assoc.Rising g.symbols)
    (agrees : g.Agrees g') : (addFile preferred g f).Agrees (addFile preferred g' f') := by
  have named := addModule_agrees agrees f.graph.module
  have described : (f.graph.symbols.foldl (addSymbol preferred f.path f.graph.module)
      (g.addModule f.graph.module)).Agrees
        (f'.graph.symbols.foldl (addSymbol preferred f.path f.graph.module)
          (g'.addModule f.graph.module)) := by
    rcases shuffled.symbols with same | ⟨perm, once⟩
    · rw [← same]
      exact List.foldl_rel named fun s _ _ _ agrees => addSymbol_agrees agrees s
    · exact addSymbols_perm perm once (addModule_rising rising _) named
  simp only [addFile, ← shuffled.path, ← shuffled.module, ← shuffled.edges]
  exact List.foldl_rel described fun e _ _ _ agrees => addEdge_agrees agrees e

theorem addFile_rising (rising : Assoc.Rising g.symbols) (f : SymbolGraphFile) :
    Assoc.Rising (addFile preferred g f).symbols := by
  have described := List.foldlRecOn (motive := fun g => Assoc.Rising g.symbols) f.graph.symbols
    (addSymbol preferred f.path f.graph.module) (addModule_rising rising f.graph.module)
    fun g rising s _ => addSymbol_rising rising s
  exact List.foldlRecOn (motive := fun g => Assoc.Rising g.symbols) f.graph.edges addEdge described
    fun g rising e _ => addEdge_rising rising e

theorem ofFiles_agrees {files files' : List SymbolGraphFile}
    (shuffled : List.Forall₂ SymbolGraphFile.Shuffled files files') :
    (ofFiles preferred files).Agrees (ofFiles preferred files') := by
  suffices kept : ∀ g g' : Gathering, Assoc.Rising g.symbols → g.Agrees g' →
      (files.foldl (addFile preferred) g).Agrees (files'.foldl (addFile preferred) g') from
    kept {} {} List.Pairwise.nil (.refl _)
  induction shuffled with
  | nil => exact fun g g' _ agrees => agrees
  | cons first _ ih =>
      exact fun g g' rising agrees =>
        ih _ _ (addFile_rising rising _) (addFile_agrees first rising agrees)

end Gathering

namespace AtlasBuild

variable {b b' : AtlasBuild} {root : Address}

/-- Two builds differ in nothing but the order of what was declined. -/
structure Agrees (b b' : AtlasBuild) : Prop where
  atlas : b.atlas = b'.atlas
  problems : b.problems.Perm b'.problems

theorem decline_agrees (agrees : b.Agrees b') (message source : String) :
    (b.decline message source).Agrees (b'.decline message source) :=
  ⟨agrees.atlas, agrees.problems.append_right _⟩

theorem insert_agrees (agrees : b.Agrees b') (p : Page) : (b.insert p).Agrees (b'.insert p) := by
  rw [insert, insert, agrees.atlas]
  split
  · exact ⟨rfl, agrees.problems⟩
  · exact ⟨rfl, agrees.problems.append_right _⟩

theorem addModule_agrees (agrees : b.Agrees b') (language module : String) :
    (addModule language b module).Agrees (addModule language b' module) := by
  rw [addModule, addModule, agrees.atlas]
  split
  · exact ⟨rfl, agrees.problems⟩
  · exact agrees

theorem assign_agrees (agrees : b.Agrees b') (overloads : Overloads) (s : GatheredSymbol) :
    (assign (b, overloads) s).1.Agrees (assign (b', overloads) s).1 ∧
      (assign (b, overloads) s).2 = (assign (b', overloads) s).2 := by
  simp only [assign, agrees.atlas]
  split
  · exact ⟨agrees, rfl⟩
  · exact ⟨decline_agrees agrees _ _, rfl⟩

theorem placeLevel_agrees (agrees : b.Agrees b') (level : List GatheredSymbol) :
    (b.placeLevel level).Agrees (b'.placeLevel level) := by
  obtain ⟨assigned, same⟩ : (level.foldl assign (b, [])).1.Agrees (level.foldl assign (b', [])).1 ∧
      (level.foldl assign (b, [])).2 = (level.foldl assign (b', [])).2 := by
    refine List.foldl_rel
      (r := fun x y : AtlasBuild × Overloads => x.1.Agrees y.1 ∧ x.2 = y.2) ⟨agrees, rfl⟩ ?_
    rintro s _ ⟨b, overloads⟩ ⟨b', _⟩ ⟨agrees, rfl⟩
    exact assign_agrees agrees overloads s
  simp only [placeLevel, same]
  refine List.foldl_rel assigned fun group _ _ _ agrees => ?_
  exact List.foldl_rel agrees fun member _ _ _ agrees => insert_agrees agrees _

theorem relate_agrees (agrees : b.Agrees b') (r : GatheredRelation) :
    (b.relate r).Agrees (b'.relate r) := by
  rw [relate, relate, agrees.atlas]
  split
  · exact ⟨rfl, agrees.problems⟩
  · exact agrees

theorem addGathering_agrees (agrees : b.Agrees b') (language : String) {g g' : Gathering}
    (same : g.Agrees g') : (b.addGathering language g).Agrees (b'.addGathering language g') := by
  have told : AtlasBuild.Agrees { b with problems := b.problems ++ g.problems }
      { b' with problems := b'.problems ++ g'.problems } :=
    ⟨agrees.atlas, agrees.problems.append same.problems⟩
  simp only [addGathering, placeSymbols, Gathering.inOrder, ← same.modules, ← same.symbols,
    ← same.relations]
  refine List.foldl_rel ?_ fun r _ _ _ agrees => relate_agrees agrees r
  refine List.foldl_rel ?_ fun level _ _ _ agrees => placeLevel_agrees agrees level
  exact List.foldl_rel told fun module _ _ _ agrees => addModule_agrees agrees language module

theorem addDocument_agrees (agrees : b.Agrees b') (extensions : List Extension) (d : Document) :
    (addDocument root (b, extensions) d).1.Agrees (addDocument root (b', extensions) d).1 ∧
      (addDocument root (b, extensions) d).2 = (addDocument root (b', extensions) d).2 := by
  simp only [addDocument]
  rcases d.parse with m | content | ⟨target, docs⟩
  · exact ⟨decline_agrees agrees _ _, rfl⟩
  · exact ⟨insert_agrees agrees _, rfl⟩
  · exact ⟨agrees, rfl⟩

theorem extend_agrees (agrees : b.Agrees b') (e : Extension) :
    (extend root b e).Agrees (extend root b' e) := by
  rw [extend, extend, agrees.atlas]
  split
  · split
    · exact ⟨rfl, agrees.problems⟩
    · exact decline_agrees agrees _ _
  · exact decline_agrees agrees _ _
  · exact decline_agrees agrees _ _

theorem addDocuments_agrees (agrees : b.Agrees b') (documents : List Document) :
    (b.addDocuments root documents).Agrees (b'.addDocuments root documents) := by
  obtain ⟨added, same⟩ :
      (documents.foldl (addDocument root) (b, [])).1.Agrees
          (documents.foldl (addDocument root) (b', [])).1 ∧
        (documents.foldl (addDocument root) (b, [])).2 =
          (documents.foldl (addDocument root) (b', [])).2 := by
    refine List.foldl_rel
      (r := fun x y : AtlasBuild × List Extension => x.1.Agrees y.1 ∧ x.2 = y.2) ⟨agrees, rfl⟩ ?_
    rintro d _ ⟨b, extensions⟩ ⟨b', _⟩ ⟨agrees, rfl⟩
    exact addDocument_agrees agrees extensions d
  simp only [addDocuments, same]
  exact List.foldl_rel added fun e _ _ _ agrees => extend_agrees agrees e

end AtlasBuild

namespace Document

theorem le_trans (d e f : Document) (first : FilePath.le d.path e.path = true)
    (second : FilePath.le e.path f.path = true) : FilePath.le d.path f.path = true :=
  FilePath.le_trans first second

theorem le_total (d e : Document) :
    (FilePath.le d.path e.path || FilePath.le e.path d.path) = true :=
  FilePath.le_total d.path e.path

theorem mergeSort_eq {l m : List Document}
    (shuffled : Shuffled (fun d : Document => FilePath.parts d.path) l m) :
    (l.mergeSort fun d e => FilePath.le d.path e.path) =
      m.mergeSort fun d e => FilePath.le d.path e.path := by
  rcases shuffled with rfl | ⟨perm, once⟩
  · rfl
  · refine mergeSort_eq_of_perm le_trans le_total perm fun d here e there first second => ?_
    exact List.inj_on_of_nodup_map once here there (FilePath.parts_eq_of_le first second)

end Document

namespace Atlas

/-- The order of documents, and of the symbols in each file, does not show in the atlas, nor in what
was declined but for its order. -/
theorem build_shuffled (settings : Settings) {inputs inputs' : Inputs}
    (shuffled : inputs.Shuffled inputs') :
    (build settings inputs).1 = (build settings inputs').1 ∧
      (build settings inputs).2.Perm (build settings inputs').2 := by
  have gathered : (Gathering.ofFiles settings.language inputs.symbolGraphs).Agrees
      (Gathering.ofFiles settings.language inputs'.symbolGraphs) :=
    Gathering.ofFiles_agrees shuffled.files
  have start : AtlasBuild.Agrees { atlas := { bundle := settings.bundle } }
      { atlas := { bundle := settings.bundle } } := ⟨rfl, .refl _⟩
  have placed := AtlasBuild.addGathering_agrees start settings.language gathered
  simp only [build, AtlasBuild.homeModule, ← gathered.modules,
    ← Document.mergeSort_eq shuffled.documents]
  have named (module : String) := AtlasBuild.addModule_agrees placed settings.language module
  exact ⟨(AtlasBuild.addDocuments_agrees (named _) _).atlas,
    (AtlasBuild.addDocuments_agrees (named _) _).problems⟩

/-- Two overloads and two articles, one pair after the other exchanged. -/
theorem build_shuffled_swapped :
    let instanceMethod : SymbolDescription :=
      { language := "swift", precise := "s:C.i", kindName := "Method"
        kindIdentifier := "swift.method", title := "reset()", path := ["C", "reset()"] }
    let typeMethod : SymbolDescription :=
      { language := "swift", precise := "s:C.t", kindName := "Type Method"
        kindIdentifier := "swift.type.method", title := "reset()", path := ["C", "reset()"] }
    let inputs : Inputs := {
      documents := [⟨"Start.md", "# Start"⟩, ⟨"More/Start.md", "# Start"⟩]
      symbolGraphs := [⟨"Kit.symbols.json", ⟨"Kit", [], [instanceMethod, typeMethod]⟩⟩] }
    let inputs' : Inputs := {
      documents := [⟨"More/Start.md", "# Start"⟩, ⟨"Start.md", "# Start"⟩]
      symbolGraphs := [⟨"Kit.symbols.json", ⟨"Kit", [], [typeMethod, instanceMethod]⟩⟩] }
    inputs.Shuffled inputs' ∧ (build {} inputs).1 = (build {} inputs').1 ∧
      (build {} inputs).2.Perm (build {} inputs').2 := by
  intro instanceMethod typeMethod inputs inputs'
  have shuffled : inputs.Shuffled inputs' := {
    documents := .inr ⟨.swap _ _ _, by decide +kernel +revert⟩
    files := .cons ⟨rfl, rfl, rfl, .inr ⟨.swap _ _ _, by decide +kernel +revert⟩⟩ .nil }
  exact ⟨shuffled, build_shuffled {} shuffled⟩

end Atlas

end Concordance
