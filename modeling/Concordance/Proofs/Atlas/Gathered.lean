import Mathlib
import Concordance.Atlas.Gather
import Concordance.Proofs.Assoc
import Concordance.Proofs.Markup.Written

/-! # What is gathered from symbol graphs

Every symbol is gathered once, under its own unique identifier. Its prose holds links
that were read, and no relations are stated of it yet.
-/

namespace Concordance

namespace SymbolContent

variable (language : String) (c : SymbolContent)

@[simp] theorem preferLanguage_precise : (c.preferLanguage language).precise = c.precise := by
  simp only [preferLanguage]
  split <;> rfl

@[simp] theorem preferLanguage_relations : (c.preferLanguage language).relations = c.relations := by
  simp only [preferLanguage]
  split <;> rfl

@[simp] theorem preferLanguage_docs : (c.preferLanguage language).docs = c.docs := by
  simp only [preferLanguage]
  split <;> rfl

theorem ofDescription_docs_written (module : String) (s : SymbolDescription) :
    (ofDescription module s).docs.Written := by
  simp only [ofDescription]
  split
  · exact Markup.ofComment_written _
  · exact Markup.empty_written

end SymbolContent

/-- A symbol that is not placed yet: its links were read, and no relations are stated of it. -/
structure GatheredSymbol.Plain (s : GatheredSymbol) : Prop where
  unrelated : s.content.relations = []
  written : s.content.docs.Written

namespace Gathering

variable {g : Gathering}

/-- Symbols by their own identifiers, and none without a module. -/
structure Sound (g : Gathering) : Prop where
  rising : Assoc.Rising g.symbols
  own : ∀ {precise : String} {s : GatheredSymbol},
    g.symbols.get? precise = some s → s.precise = precise ∧ s.Plain
  modules : g.modules = [] → g.symbols = []

theorem Sound.empty : Sound {} where
  rising := List.Pairwise.nil
  own found := by cases found
  modules _ := rfl

theorem Sound.put (sound : g.Sound) {s : GatheredSymbol} (plain : s.Plain) (some : g.modules ≠ []) :
    Sound { g with symbols := g.symbols.put s.precise s } where
  rising := sound.rising.put _ _
  own := by
    intro precise t found
    rw [Assoc.get?_put] at found
    split at found
    · rename_i same
      cases found
      exact ⟨(eq_of_beq same).symm, plain⟩
    · exact sound.own found
  modules none := absurd none some

theorem addSymbol_sound {preferred path module : String} (sound : g.Sound) (some : g.modules ≠ [])
    (s : SymbolDescription) :
    (addSymbol preferred path module g s).Sound ∧
      (addSymbol preferred path module g s).modules = g.modules := by
  simp only [addSymbol]
  split
  · exact ⟨⟨sound.rising, sound.own, sound.modules⟩, rfl⟩
  · split
    · have plain : GatheredSymbol.Plain {
          content := (SymbolContent.ofDescription module s).preferLanguage preferred
          humanPath := module :: s.path
          source := path } :=
        ⟨by simp [SymbolContent.ofDescription],
          by simpa using SymbolContent.ofDescription_docs_written module s⟩
      have precise : ((SymbolContent.ofDescription module s).preferLanguage preferred).precise =
          s.precise := by
        simp [SymbolContent.ofDescription]
      have added := sound.put plain some
      simp only [GatheredSymbol.precise, precise] at added
      exact ⟨added, rfl⟩
    · rename_i known found
      split
      · exact ⟨⟨sound.rising, sound.own, sound.modules⟩, rfl⟩
      · obtain ⟨own, plain⟩ := sound.own found
        have kept : GatheredSymbol.Plain { known with
            content := known.content.addPresentation preferred s.presentation } :=
          ⟨by simpa [SymbolContent.addPresentation] using plain.unrelated,
            by simpa [SymbolContent.addPresentation] using plain.written⟩
        have precise : (known.content.addPresentation preferred s.presentation).precise =
            s.precise := by
          rw [SymbolContent.addPresentation, SymbolContent.preferLanguage_precise]
          exact own
        have added := sound.put kept some
        simp only [GatheredSymbol.precise, precise] at added
        exact ⟨added, rfl⟩

theorem addEdge_sound (sound : g.Sound) (some : g.modules ≠ []) (e : SymbolEdge) :
    (g.addEdge e).Sound ∧ (g.addEdge e).modules = g.modules := by
  simp only [addEdge]
  split
  · split
    · rename_i s found
      obtain ⟨own, plain⟩ := sound.own found
      have kept : GatheredSymbol.Plain { s with owner := s.owner.or (.some e.target) } :=
        ⟨plain.unrelated, plain.written⟩
      have added := sound.put kept some
      have same : GatheredSymbol.precise { s with owner := s.owner.or (.some e.target) } = e.source :=
        own
      rw [same] at added
      exact ⟨added, rfl⟩
    · exact ⟨sound, rfl⟩
  · split
    · exact ⟨⟨sound.rising, sound.own, sound.modules⟩, rfl⟩
    · exact ⟨sound, rfl⟩

theorem foldl_sound {α : Type} {f : Gathering → α → Gathering}
    (each : ∀ g : Gathering, g.Sound → g.modules ≠ [] →
      ∀ x, (f g x).Sound ∧ (f g x).modules = g.modules)
    (l : List α) (sound : g.Sound) (some : g.modules ≠ []) :
    (l.foldl f g).Sound ∧ (l.foldl f g).modules = g.modules := by
  induction l generalizing g with
  | nil => exact ⟨sound, rfl⟩
  | cons x l ih =>
      obtain ⟨kept, same⟩ := each g sound some x
      obtain ⟨rest, modules⟩ := ih kept (same ▸ some)
      exact ⟨rest, modules.trans same⟩

theorem addModule_sound (sound : g.Sound) (module : String) :
    (g.addModule module).Sound ∧ (g.addModule module).modules ≠ [] := by
  simp only [addModule]
  split
  · rename_i known
    refine ⟨sound, fun none => ?_⟩
    rw [none] at known
    cases known
  · refine ⟨⟨sound.rising, sound.own, fun none => ?_⟩, by simp⟩
    simp at none

theorem addFile_sound (preferred : String) (sound : g.Sound) (file : SymbolGraphFile) :
    (addFile preferred g file).Sound := by
  obtain ⟨named, some⟩ := addModule_sound sound file.graph.module
  obtain ⟨symbols, same⟩ := foldl_sound (f := addSymbol preferred file.path file.graph.module)
    (fun g sound some s => addSymbol_sound sound some s) file.graph.symbols named some
  exact (foldl_sound (fun g sound some e => addEdge_sound sound some e) file.graph.edges symbols
    (same ▸ some)).1

theorem ofFiles_sound (preferred : String) (files : List SymbolGraphFile) :
    (ofFiles preferred files).Sound :=
  List.foldlRecOn (motive := Sound) files _ .empty fun _ sound file _ =>
    addFile_sound preferred sound file

/-- A description of a symbol, with where it stands. -/
structure Described where
  path : String
  /-- The module that the file is about. -/
  module : String
  symbol : SymbolDescription
  deriving DecidableEq

/-- All descriptions in files, in the order in which they are read. -/
def described (files : List SymbolGraphFile) : List Described :=
  files.flatMap fun file => file.graph.symbols.map fun s => ⟨file.path, file.graph.module, s⟩

/-- What holds at the start, and is kept by every description that is read and by everything else
that is added, holds of what is gathered from files and of all their descriptions. -/
theorem ofFiles_reads {preferred : String} {P : Gathering → List Described → Prop} (start : P {} [])
    (module : ∀ {g read} (module : String), P g read → P (g.addModule module) read)
    (symbol : ∀ {g read} (d : Described), P g read →
      P (addSymbol preferred d.path d.module g d.symbol) (read ++ [d]))
    (edge : ∀ {g read} (e : SymbolEdge), P g read → P (g.addEdge e) read)
    (files : List SymbolGraphFile) : P (ofFiles preferred files) (described files) := by
  have symbols (path name : String) (left : List SymbolDescription) {g : Gathering}
      {read : List Described} (here : P g read) :
      P (left.foldl (addSymbol preferred path name) g)
        (read ++ left.map fun s => ⟨path, name, s⟩) := by
    induction left generalizing g read with
    | nil => simpa using here
    | cons s left ih => simpa using ih (symbol ⟨path, name, s⟩ here)
  have edges (left : List SymbolEdge) {g : Gathering} {read : List Described} (here : P g read) :
      P (left.foldl addEdge g) read :=
    List.foldlRecOn (motive := (P · read)) left _ here fun _ here e _ => edge e here
  have all (left : List SymbolGraphFile) {g : Gathering} {read : List Described}
      (here : P g read) : P (left.foldl (addFile preferred) g) (read ++ described left) := by
    induction left generalizing g read with
    | nil => simpa [described] using here
    | cons file left ih =>
        rw [List.foldl_cons, described, List.flatMap_cons, ← List.append_assoc]
        exact ih (edges _ (symbols _ _ _ (module _ here)))
  exact all files start

section Each

variable {preferred : String} {P : GatheredSymbol → Prop}

def Each (P : GatheredSymbol → Prop) (g : Gathering) : Prop :=
  ∀ ⦃precise : String⦄ ⦃s : GatheredSymbol⦄, g.symbols.get? precise = some s → P s

theorem Each.put {g : Gathering} (each : g.Each P) {s : GatheredSymbol} (own : P s)
    (precise : String) : Each P { g with symbols := g.symbols.put precise s } := by
  intro other t found
  rw [Assoc.get?_put] at found
  split at found
  · cases found
    exact own
  · exact each found

theorem Each.inOrder {g : Gathering} (each : g.Each P) (sound : g.Sound) {s : GatheredSymbol}
    (member : s ∈ g.inOrder) : P s := by
  simp only [Gathering.inOrder, List.mem_mergeSort, Assoc.values, List.mem_map] at member
  obtain ⟨⟨precise, t⟩, entry, rfl⟩ := member
  exact each (sound.rising.get?_eq_some_iff.mpr entry)

/-- What holds of a symbol by its first description, and is kept when it is described in another
language or gets an owner, holds of every symbol that is gathered. -/
theorem ofFiles_each
    (described : ∀ (path module : String) (s : SymbolDescription), s.flaw? = none →
      P { content := (SymbolContent.ofDescription module s).preferLanguage preferred
          humanPath := module :: s.path
          source := path })
    (presented : ∀ s presentation, P s →
      P { s with content := s.content.addPresentation preferred presentation })
    (owned : ∀ s owner, P s → P { s with owner := owner }) (files : List SymbolGraphFile) :
    (ofFiles preferred files).Each P := by
  refine ofFiles_reads (P := fun g _ => g.Each P) (fun _ _ none => by cases none) ?_ ?_ ?_ files
  · intro g _ module each
    rw [addModule]
    split
    · exact each
    · exact each
  · intro g _ d each
    cases flaw : d.symbol.flaw? with
    | some kind =>
        simp only [addSymbol, SymbolDescription.malformed?, flaw, Option.map_some]
        exact each
    | none =>
        simp only [addSymbol, SymbolDescription.malformed?, flaw, Option.map_none]
        split
        · exact each.put (described d.path d.module d.symbol flaw) _
        · rename_i known
          split
          · exact each
          · exact each.put (presented _ _ (each known)) _
  · intro g _ e each
    simp only [addEdge]
    split
    · split
      · rename_i known
        exact each.put (owned _ _ (each known)) _
      · exact each
    · split
      · exact each
      · exact each

theorem ofFiles_named (preferred : String) (files : List SymbolGraphFile) :
    (ofFiles preferred files).Each fun s => s.name ≠ "" := by
  refine ofFiles_each (fun path module s flawless => ?_) (fun _ _ named => named)
    (fun _ _ named => named) files
  have full : s.path ≠ [] ∧ ∀ component ∈ s.path, Text.isBlankText component = false := by
    simp only [SymbolDescription.flaw?] at flawless
    split at flawless
    · cases flawless
    split at flawless
    · cases flawless
    · rename_i some told
      exact ⟨by simpa using some, by simpa using told⟩
  rw [GatheredSymbol.name, List.getLastD_eq_getLast?, List.getLast?_cons,
    List.getLast?_eq_some_getLast full.1]
  intro empty
  have told := full.2 _ (List.getLast_mem full.1)
  simp only [Option.getD_some] at empty
  rw [empty] at told
  cases told

end Each

theorem Sound.plain (sound : g.Sound) {s : GatheredSymbol} (member : s ∈ g.inOrder) : s.Plain :=
  Each.inOrder (fun _ _ found => (sound.own found).2) sound member

theorem Sound.nodup (sound : g.Sound) : (g.inOrder.map GatheredSymbol.precise).Nodup := by
  have keys : g.symbols.values.map GatheredSymbol.precise = g.symbols.keys := by
    rw [Assoc.values, Assoc.keys, List.map_map]
    apply List.map_congr_left
    intro entry member
    exact (sound.own (sound.rising.get?_eq_some_iff.mpr member)).1
  have sorted := (List.mergeSort_perm g.symbols.values GatheredSymbol.le).map GatheredSymbol.precise
  rw [keys] at sorted
  exact sorted.nodup_iff.mpr sound.rising.nodup_keys

end Gathering

end Concordance
