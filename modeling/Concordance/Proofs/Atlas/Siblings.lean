import Mathlib
import Concordance.Proofs.Atlas.Descriptions
import Concordance.Proofs.Atlas.Subjects

/-! # Pages of symbols of one name

Suffixes tell the symbols of one name apart that are placed below one page on one level.
But a symbol can stand below a page of its owner on another level than its own path
says, and symbols of one name on different levels are not told apart: each level goes
by its own symbols. What is placed later at an address gets no page.
-/

namespace Concordance

namespace AtlasBuild.Placement

/-- Placements of symbols of one name below one page. -/
def Sibling (p q : Placement) : Prop := q.parent = p.parent ∧ q.symbol.name = p.symbol.name

instance (p q : Placement) : Decidable (p.Sibling q) := inferInstanceAs (Decidable (_ ∧ _))

def hash (p : Placement) : String := p.symbol.distinction.hash

end AtlasBuild.Placement

namespace Atlas

open AtlasBuild (Placement)
open AtlasBuild.Placement (Sibling)

/-- The page of a placed symbol is there, under the address of its place. -/
def Places (a : Atlas) (p : Placement) : Prop :=
  ∃ page, a.pages.get? p.address = some page ∧ page.kind = .symbol ∧
    page.precise? = some p.symbol.precise

theorem places_iff_subjectAt? {a : Atlas} {p : Placement} :
    a.Places p ↔ ∃ languages, a.subjectAt? p.address = some (p.symbol.precise, languages) := by
  simp only [Places, subjectAt?, Option.bind_eq_some_iff, Page.subject?_eq_some, Page.precise?,
    Option.map_eq_some_iff, Content.symbol?_eq_some]
  constructor
  · rintro ⟨page, found, kind, content, shown, same⟩
    exact ⟨_, page, found, kind, content, shown, same, rfl⟩
  · rintro ⟨languages, page, found, kind, content, shown, same, _⟩
    exact ⟨page, found, kind, content, shown, same⟩

variable {settings : Settings} {inputs : Inputs} {p q : Placement}

theorem symbol_eq_of_precise (one : p ∈ placements settings inputs)
    (other : q ∈ placements settings inputs) (same : p.symbol.precise = q.symbol.precise) :
    p.symbol = q.symbol :=
  List.inj_on_of_nodup_map (Gathering.ofFiles_sound _ _).nodup (symbol_of_placements one)
    (symbol_of_placements other) same

theorem kind_of_placements (member : p ∈ placements settings inputs) :
    p.symbol.distinction.kind ∈ SymbolKind.known :=
  ((Gathering.ofFiles_records _ _).inOrder (Gathering.ofFiles_sound _ _)
    (symbol_of_placements member)).2.1

theorem address_eq_iff (one : p ∈ placements settings inputs)
    (other : q ∈ placements settings inputs) :
    q.address = p.address ↔ q.parent = p.parent ∧ q.component = p.component := by
  have whole (r : Placement) :
      r.address = { bundle := r.parent.bundle, path := r.parent.path ++ [r.component] } := rfl
  rw [whole, whole, Address.mk.injEq]
  constructor
  · rintro ⟨_, paths, _⟩
    obtain ⟨path, last⟩ := List.append_inj' paths rfl
    refine ⟨?_, List.singleton_inj.mp last⟩
    rw [(parent_of_placements settings inputs one).2,
      (parent_of_placements settings inputs other).2, path]
  · rintro ⟨parent, component⟩
    rw [parent, component]
    exact ⟨rfl, rfl, rfl⟩

theorem exists_first (member : p ∈ placements settings inputs) :
    ∃ first ∈ placements settings inputs, first.address = p.address ∧
      (∀ q ∈ placements settings inputs, q.address = p.address → first.depth ≤ q.depth) ∧
      ((build settings inputs).1.Places p ↔ first.symbol = p.symbol) := by
  have strata := (gathering settings inputs).levels_stratified
  have sorted := strata.sorted (foundation settings inputs)
  rw [← placements] at sorted
  obtain ⟨first, found⟩ : ∃ first, ((placements settings inputs).find?
      fun q => q.address == p.address) = some first :=
    Option.isSome_iff_exists.mp (List.find?_isSome.mpr ⟨p, member, beq_self_eq_true _⟩)
  obtain ⟨here, before, after, whole, unlike⟩ := List.find?_eq_some_iff_append.mp found
  have listed : first ∈ placements settings inputs := List.mem_of_find?_eq_some found
  refine ⟨first, listed, eq_of_beq here, fun q inside same => ?_, ?_⟩
  · rw [whole] at inside
    rw [whole, List.pairwise_append, List.pairwise_cons] at sorted
    rcases List.mem_append.mp inside with early | late
    · simpa [same] using unlike q early
    · rcases List.mem_cons.mp late with rfl | late
      · exact le_rfl
      · exact sorted.2.1.1 q late
  · rw [places_iff_subjectAt?, build_subjectAt?, found, Option.map_some]
    constructor
    · rintro ⟨languages, same⟩
      exact symbol_eq_of_precise listed member (Prod.mk.inj (Option.some.inj same)).1
    · intro same
      exact ⟨_, congrArg some (Prod.ext (congrArg GatheredSymbol.precise same) rfl)⟩

theorem Places.first (places : (build settings inputs).1.Places p)
    (member : p ∈ placements settings inputs) (other : q ∈ placements settings inputs)
    (here : q.address = p.address) : p.depth ≤ q.depth := by
  obtain ⟨first, _, _, highest, own⟩ := exists_first member
  have depth : first.depth = p.depth :=
    congrArg (fun s => s.humanPath.length) (own.mp places)
  exact depth ▸ highest q other here

/-- A symbol has its page exactly if no other one has its address on a higher level, given that the
others at the address are on other levels. -/
theorem places_iff_first (member : p ∈ placements settings inputs)
    (apart : ∀ q ∈ placements settings inputs, q.address = p.address → q.depth = p.depth →
      q.symbol = p.symbol) :
    (build settings inputs).1.Places p ↔
      ∀ q ∈ placements settings inputs, q.address = p.address → p.depth ≤ q.depth := by
  refine ⟨fun places q other here => places.first member other here, fun lowest => ?_⟩
  obtain ⟨first, listed, here, highest, own⟩ := exists_first member
  exact own.mpr (apart first listed here
    (Nat.le_antisymm (highest p member rfl) (lowest first listed here)))

theorem symbol_eq_of_component (one : p ∈ placements settings inputs)
    (other : q ∈ placements settings inputs) (sibling : p.Sibling q) (level : q.depth = p.depth)
    (hashes : q.symbol.precise ≠ p.symbol.precise → q.hash ≠ p.hash)
    (word : p.hash ∉ SymbolKind.known) (word' : q.hash ∉ SymbolKind.known)
    (same : q.component = p.component) : q.symbol = p.symbol := by
  obtain ⟨c, _, _, _, there, here⟩ := (Gathering.levels_stratified _).together other one level
  obtain ⟨inside, parent, component⟩ := AtlasBuild.mem_placementsOn.mp here
  obtain ⟨inside', parent', component'⟩ := AtlasBuild.mem_placementsOn.mp there
  rw [component, component', sibling.1, sibling.2] at same
  refine Distinction.component_injective GatheredSymbol.distinction
    (AtlasBuild.mem_fellows.mpr ⟨inside', sibling.2, sibling.1 ▸ parent'⟩)
    (AtlasBuild.mem_fellows.mpr ⟨inside, rfl, parent⟩) (fun equal => ?_) (fun equal => ?_)
    (fun equal => ?_) same
  · by_contra different
    exact hashes (fun twin => different (symbol_eq_of_precise other one twin)) equal
  · exact word' (by rw [Placement.hash, equal]; exact kind_of_placements one)
  · exact word (by rw [Placement.hash, equal]; exact kind_of_placements other)

theorem component_of_alone (member : p ∈ placements settings inputs)
    (alone : ∀ q ∈ placements settings inputs, p.Sibling q → q.depth = p.depth →
      q.symbol = p.symbol) : p.component = p.symbol.name := by
  let g := gathering settings inputs
  have strata := g.levels_stratified
  obtain ⟨c, level, run, among, here, _⟩ := strata.together member member rfl
  obtain ⟨inside, parent, component⟩ := AtlasBuild.mem_placementsOn.mp here
  have only : ∀ s ∈ c.fellows level ⟨p.parent, p.symbol.name⟩, s = p.symbol := by
    intro s fellow
    obtain ⟨beside, name, above⟩ := AtlasBuild.mem_fellows.mp fellow
    let component := Distinction.component s.name
      ((c.fellows level ⟨p.parent, s.name⟩).map GatheredSymbol.distinction) s.distinction
    have placed : ⟨s, p.parent, component⟩ ∈ c.placementsOn level :=
      AtlasBuild.mem_placementsOn.mpr ⟨beside, above, rfl⟩
    exact alone _ (among placed) ⟨rfl, name⟩ (strata.even level run s beside p.symbol inside)
  have once : (c.fellows level ⟨p.parent, p.symbol.name⟩).Nodup := by
    refine List.Nodup.filter _ ?_
    have all : g.levels.flatten.Nodup :=
      g.flatten_levels ▸ (Gathering.ofFiles_sound _ _).nodup.of_map _
    exact all.sublist (List.sublist_flatten_of_mem run)
  have own : p.symbol ∈ c.fellows level ⟨p.parent, p.symbol.name⟩ :=
    AtlasBuild.mem_fellows.mpr ⟨inside, rfl, parent⟩
  have single : c.fellows level ⟨p.parent, p.symbol.name⟩ = [p.symbol] := by
    rw [← List.perm_singleton, List.perm_ext_iff_of_nodup once (List.nodup_singleton _)]
    intro s
    rw [List.mem_singleton]
    exact ⟨only s, fun same => same ▸ own⟩
  rw [component, single, Distinction.component_single]
  rfl

/-- Of two symbols of one name below one page that are each alone on their levels, the one on the
lower level has no page. -/
theorem not_places_of_alone (one : p ∈ placements settings inputs)
    (other : q ∈ placements settings inputs) (sibling : p.Sibling q) (higher : q.depth < p.depth)
    (alone : ∀ r ∈ placements settings inputs, p.Sibling r → r.depth = p.depth →
      r.symbol = p.symbol)
    (alone' : ∀ r ∈ placements settings inputs, q.Sibling r → r.depth = q.depth →
      r.symbol = q.symbol) :
    ¬ (build settings inputs).1.Places p := by
  intro places
  have component : q.component = p.component := by
    rw [component_of_alone other alone', component_of_alone one alone, sibling.2]
  have := places.first one other ((address_eq_iff one other).mpr ⟨sibling.1, component⟩)
  omega

/-- A symbol whose hash tells it apart has its page exactly if no symbol of its name on a higher
level has its component. -/
theorem sibling_places_iff (member : p ∈ placements settings inputs)
    (hashes : ∀ q ∈ placements settings inputs, p.Sibling q →
      q.symbol.precise ≠ p.symbol.precise → q.hash ≠ p.hash)
    (words : ∀ q ∈ placements settings inputs, p.Sibling q → q.hash ∉ SymbolKind.known)
    (others : ∀ q ∈ placements settings inputs, q.parent = p.parent →
      q.symbol.name ≠ p.symbol.name → q.component ≠ p.component) :
    (build settings inputs).1.Places p ↔
      ∀ q ∈ placements settings inputs, p.Sibling q → q.depth < p.depth →
        q.component ≠ p.component := by
  have siblings : ∀ q ∈ placements settings inputs, q.address = p.address ↔
      p.Sibling q ∧ q.component = p.component := by
    intro q inside
    rw [address_eq_iff member inside]
    constructor
    · rintro ⟨parent, component⟩
      refine ⟨⟨parent, ?_⟩, component⟩
      by_contra name
      exact others q inside parent name component
    · rintro ⟨sibling, component⟩
      exact ⟨sibling.1, component⟩
  rw [places_iff_first member fun q inside here level => ?_]
  · constructor
    · intro first q inside sibling higher component
      have := first q inside ((siblings q inside).mpr ⟨sibling, component⟩)
      omega
    · intro free q inside here
      obtain ⟨sibling, component⟩ := (siblings q inside).mp here
      by_contra higher
      exact free q inside sibling (Nat.not_le.mp higher) component
  · obtain ⟨sibling, component⟩ := (siblings q inside).mp here
    exact symbol_eq_of_component member inside sibling level (hashes q inside sibling)
      (words p member ⟨rfl, rfl⟩) (words q inside sibling) component

/-- A method that its owner draws to a page above its own path has the same plain name as the one
whose path leads there, and gets no page. -/
theorem sibling_places_iff_levels :
    let inputs : Inputs := { symbolGraphs := [⟨"Kit.symbols.json", {
      module := "Kit"
      symbols := [
        { language := "swift", precise := "s:C", kindName := "Class"
          kindIdentifier := "swift.class", title := "C", path := ["C"] },
        { language := "swift", precise := "s:C.a", kindName := "Method"
          kindIdentifier := "swift.method", title := "run()", path := ["C", "run()"] },
        { language := "swift", precise := "s:C.b", kindName := "Type Method"
          kindIdentifier := "swift.type.method", title := "run()"
          path := ["C", "Extra", "run()"] }]
      edges := [{ kind := "memberOf", source := "s:C.b", target := "s:C" }] }⟩] }
    ((placements {} inputs).map fun p => (p.symbol.precise, p.address.path)) =
        [("s:C", ["Kit", "C"]), ("s:C.a", ["Kit", "C", "run()"]),
          ("s:C.b", ["Kit", "C", "run()"])] ∧
      ∀ p ∈ placements {} inputs, (build {} inputs).1.Places p ↔ p.symbol.precise ≠ "s:C.b" := by
  intro inputs
  let g := gathering {} inputs
  let ps := (foundation {} inputs).placements
    (g.symbols.values.splitBy fun s t => s.humanPath.length == t.humanPath.length)
  have facts : (ps.map fun p => (p.symbol.precise, p.address.path)) =
      [("s:C", ["Kit", "C"]), ("s:C.a", ["Kit", "C", "run()"]),
        ("s:C.b", ["Kit", "C", "run()"])] ∧
      ∀ p ∈ ps,
        (∀ q ∈ ps, p.Sibling q → q.symbol.precise ≠ p.symbol.precise → q.hash ≠ p.hash) ∧
        (∀ q ∈ ps, p.Sibling q → q.hash ∉ SymbolKind.known) ∧
        (∀ q ∈ ps, q.parent = p.parent → q.symbol.name ≠ p.symbol.name →
          q.component ≠ p.component) ∧
        ((∀ q ∈ ps, p.Sibling q → q.depth < p.depth → q.component ≠ p.component) ↔
          p.symbol.precise ≠ "s:C.b") := by
    decide +kernel +revert
  -- The symbols come in order of their identifiers, which is that of their paths.
  have sorted : g.inOrder = g.symbols.values := List.mergeSort_of_pairwise (by
    clear facts
    decide +kernel +revert)
  have placed : ps = placements {} inputs := by rw [placements, Gathering.levels, sorted]
  rw [placed] at facts
  refine ⟨facts.1, fun p member => ?_⟩
  obtain ⟨hashes, words, others, free⟩ := facts.2 p member
  rw [sibling_places_iff member hashes words others]
  exact free

end Atlas

end Concordance
