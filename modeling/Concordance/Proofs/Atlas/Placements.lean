import Mathlib
import Concordance.Proofs.Atlas.Components
import Concordance.Proofs.Atlas.Distinguished
import Concordance.Proofs.Atlas.Steps
import Concordance.Proofs.Lists

/-! # Where symbols are placed

Placing symbols gives each of them a place: a page above it and a path component. The
pages are then inserted in order, and an address belongs to the first symbol that was
placed there. Symbols with shorter paths are placed before those with longer ones.
-/

namespace Concordance

namespace AtlasBuild

section Levels

variable {α : Type} {key : α → Nat}

theorem key_eq_of_mem_splitBy {l level : List α}
    (run : level ∈ l.splitBy fun x y => key x == key y) {x y : α} (first : x ∈ level)
    (second : y ∈ level) : key x = key y := by
  have chain : level.IsChain fun x y => key x = key y :=
    (List.isChain_of_mem_splitBy run).imp fun _ _ same => eq_of_beq same
  have trans : IsTrans α fun x y => key x = key y := ⟨fun _ _ _ => Eq.trans⟩
  have symm : Std.Symm fun x y => key x = key y := ⟨fun _ _ => Eq.symm⟩
  have even := List.isChain_iff_pairwise.mp chain
  exact List.Pairwise.forall_of_forall (R := fun x y => key x = key y) (fun _ _ => rfl) even
    first second

theorem splitBy_rises {l : List α} (sorted : l.Pairwise fun x y => key x ≤ key y) :
    (l.splitBy fun x y => key x == key y).Pairwise
      fun a b => ∀ x ∈ a, ∀ y ∈ b, key x < key y := by
  have apart := List.isChain_getLast_head_splitBy (fun x y => key x == key y) l
  have even := fun level run x y => @key_eq_of_mem_splitBy α key l level run x y
  rw [← List.flatten_splitBy (fun x y => key x == key y) l] at sorted
  generalize (l.splitBy fun x y => key x == key y) = levels at apart even sorted
  induction levels with
  | nil => exact .nil
  | cons a levels ih =>
      obtain ⟨_, rest⟩ := List.pairwise_cons.mp (List.pairwise_flatten.mp sorted).2
      rw [List.flatten_cons, List.pairwise_append] at sorted
      obtain ⟨_, later, across⟩ := sorted
      refine List.pairwise_cons.mpr ⟨fun b member x inA y inB => ?_,
        ih apart.tail (fun level run => even level (List.mem_cons_of_mem _ run)) later⟩
      cases levels with
      | nil => cases member
      | cons c levels =>
          obtain ⟨someA, someC, different⟩ := (List.isChain_cons_cons.mp apart).1
          have last := List.getLast_mem someA
          have first := List.head_mem someC
          have edge := across _ last _ (List.mem_flatten.mpr ⟨c, List.mem_cons_self, first⟩)
          have low : key x = key (a.getLast someA) := even a List.mem_cons_self x _ inA last
          have high : key (c.head someC) ≤ key y := by
            rcases List.mem_cons.mp member with rfl | member
            · exact (even b (by simp) _ y first inB).le
            · exact (List.pairwise_cons.mp rest).1 b member _ first y inB
          have := ne_of_beq_false different
          omega

end Levels

/-- A symbol, the page it is placed below, and its path component there. -/
structure Placement where
  symbol : GatheredSymbol
  parent : Address
  component : String
  deriving Repr, DecidableEq

namespace Placement

def page (p : Placement) : Page := symbolPage p.parent p.component p.symbol

def address (p : Placement) : Address := p.page.address

def depth (p : Placement) : Nat := p.symbol.humanPath.length

end Placement

variable {b : AtlasBuild} {level : List GatheredSymbol} {p q : Placement}

/-- The symbols of one level by their places. -/
def overloads (b : AtlasBuild) (level : List GatheredSymbol) : Overloads :=
  (level.foldl assign (b, [])).2

def placementsAt (place : OverloadPlace) (members : List GatheredSymbol) : List Placement :=
  let distinctions := members.map GatheredSymbol.distinction
  members.map fun s =>
    ⟨s, place.parent, Distinction.component place.name distinctions s.distinction⟩

def placementsOn (b : AtlasBuild) (level : List GatheredSymbol) : List Placement :=
  (b.overloads level).flatMap fun entry => placementsAt entry.1 entry.2

/-- Where the symbols of all levels are placed, in the order in which their pages are inserted. -/
def placements (b : AtlasBuild) : List (List GatheredSymbol) → List Placement
  | [] => []
  | level :: rest => b.placementsOn level ++ placements (b.placeLevel level) rest

def insertAll (b : AtlasBuild) (ps : List Placement) : AtlasBuild :=
  ps.foldl (fun b p => b.insert p.page) b

theorem addOverloads_eq (place : OverloadPlace) (members : List GatheredSymbol) :
    b.addOverloads place members = b.insertAll (placementsAt place members) := by
  have zipped (f : GatheredSymbol → String) (l : List GatheredSymbol) :
      l.zip (l.map f) = l.map fun s => (s, f s) := by
    induction l with
    | nil => rfl
    | cons s l ih => simp [ih]
  rw [addOverloads, insertAll, placementsAt, List.foldl_map, Distinction.components_eq_map,
    List.map_map, zipped, List.foldl_map]
  rfl

theorem placeLevel_eq : b.placeLevel level =
    (level.foldl assign (b, [])).1.insertAll (b.placementsOn level) := by
  simp only [placeLevel, placementsOn, overloads, addOverloads_eq, insertAll, List.foldl_flatMap]

section Assigning

variable {s t u : AtlasBuild × Overloads} {rest : List GatheredSymbol}

def belongs (atlas : Atlas) (place : OverloadPlace) (s : GatheredSymbol) : Bool :=
  s.name == place.name && (parentOf atlas s).toOption == some place.parent

theorem belongs_iff {atlas : Atlas} {place : OverloadPlace} {s : GatheredSymbol} :
    belongs atlas place s = true ↔ s.name = place.name ∧ parentOf atlas s = .ok place.parent := by
  cases found : parentOf atlas s <;> simp [belongs, found, Except.toOption]

/-- What finding the places of symbols does. -/
structure Assigned (s : AtlasBuild × Overloads) (level : List GatheredSymbol)
    (t : AtlasBuild × Overloads) : Prop where
  /-- Nothing is inserted. -/
  atlas : t.1.atlas = s.1.atlas
  rising : Assoc.Rising t.2
  /-- Every place is given to the symbols that belong there. -/
  members : ∀ place, (t.2.get? place).getD [] =
    (s.2.get? place).getD [] ++ level.filter (belongs s.1.atlas place)
  /-- All symbols that belong nowhere are declined. -/
  account : t.1.problems.length + (t.2.flatMap Prod.snd).length =
    s.1.problems.length + (s.2.flatMap Prod.snd).length + level.length

theorem Assigned.trans (one : Assigned s level t) (other : Assigned t rest u) :
    Assigned s (level ++ rest) u where
  atlas := other.atlas.trans one.atlas
  rising := other.rising
  members place := by
    rw [other.members, one.members, one.atlas, List.filter_append, List.append_assoc]
  account := by
    have first := one.account
    have second := other.account
    rw [List.length_append]
    omega

theorem assign_assigned (rising : Assoc.Rising s.2) (symbol : GatheredSymbol) :
    Assigned s [symbol] (assign s symbol) := by
  obtain ⟨b, overloads⟩ := s
  cases found : parentOf b.atlas symbol with
  | error message =>
      simp only [assign, found]
      refine ⟨rfl, rising, fun place => ?_, ?_⟩
      · have nowhere : belongs b.atlas place symbol ≠ true := by
          rw [Ne, belongs_iff, found]
          simp
        rw [List.filter_cons_of_neg nowhere, List.filter_nil, List.append_nil]
      · simp only [decline, List.length_append, List.length_cons, List.length_nil]
        omega
  | ok parent =>
      simp only [assign, found]
      refine ⟨rfl, rising.put _ _, fun place => ?_, ?_⟩
      · rw [Assoc.get?_put]
        by_cases here : place = ⟨parent, symbol.name⟩
        · have there : belongs b.atlas place symbol = true := belongs_iff.mpr (here ▸ ⟨rfl, found⟩)
          rw [if_pos (beq_iff_eq.mpr here), List.filter_cons_of_pos there, here]
          rfl
        · have elsewhere : belongs b.atlas place symbol ≠ true := by
            rw [Ne, belongs_iff, found]
            rintro ⟨name, same⟩
            cases same
            exact here (congrArg (OverloadPlace.mk place.parent) name.symm)
          rw [if_neg (mt beq_iff_eq.mp here), List.filter_cons_of_neg elsewhere, List.filter_nil,
            List.append_nil]
      · have grown := Assoc.Rising.flatMap_put_append rising ⟨parent, symbol.name⟩ symbol
        rw [grown.length_eq]
        simp only [List.length_cons, List.length_nil]
        omega

theorem foldl_assigned (level : List GatheredSymbol) (rising : Assoc.Rising s.2) :
    Assigned s level (level.foldl assign s) := by
  induction level generalizing s with
  | nil => exact ⟨rfl, rising, fun place => by simp, rfl⟩
  | cons symbol level ih =>
      have first := assign_assigned rising symbol
      exact first.trans (ih first.rising)

theorem overloads_assigned (b : AtlasBuild) (level : List GatheredSymbol) :
    Assigned (b, []) level (level.foldl assign (b, [])) :=
  foldl_assigned level .nil

end Assigning

/-- The symbols of a level that belong at a place. -/
def fellows (b : AtlasBuild) (level : List GatheredSymbol) (place : OverloadPlace) :
    List GatheredSymbol :=
  level.filter (belongs b.atlas place)

theorem mem_fellows {place : OverloadPlace} {s : GatheredSymbol} :
    s ∈ b.fellows level place ↔
      s ∈ level ∧ s.name = place.name ∧ parentOf b.atlas s = .ok place.parent := by
  rw [fellows, List.mem_filter, belongs_iff]

/-- Each symbol of a level is placed below the page that is found above it, and has the component
that it has among those that belong there. -/
theorem mem_placementsOn :
    p ∈ b.placementsOn level ↔
      p.symbol ∈ level ∧ parentOf b.atlas p.symbol = .ok p.parent ∧
        p.component = Distinction.component p.symbol.name
          ((b.fellows level ⟨p.parent, p.symbol.name⟩).map GatheredSymbol.distinction)
          p.symbol.distinction := by
  have assigned := b.overloads_assigned level
  have members (place : OverloadPlace) :
      ((b.overloads level).get? place).getD [] = b.fellows level place := assigned.members place
  simp only [placementsOn, List.mem_flatMap, placementsAt, List.mem_map]
  constructor
  · rintro ⟨⟨place, given⟩, entry, s, member, rfl⟩
    have found : (b.overloads level).get? place = some given :=
      assigned.rising.get?_eq_some_iff.mpr entry
    obtain rfl : given = b.fellows level place := by rw [← members, found, Option.getD_some]
    obtain ⟨inside, name, parent⟩ := mem_fellows.mp member
    obtain ⟨above, own⟩ := place
    obtain rfl : s.name = own := name
    exact ⟨inside, parent, rfl⟩
  · rintro ⟨inside, parent, component⟩
    have member : p.symbol ∈ b.fellows level ⟨p.parent, p.symbol.name⟩ :=
      mem_fellows.mpr ⟨inside, rfl, parent⟩
    cases found : (b.overloads level).get? ⟨p.parent, p.symbol.name⟩ with
    | none =>
        rw [← members, found] at member
        cases member
    | some given =>
        rw [← members, found, Option.getD_some] at member component
        exact ⟨_, Assoc.mem_of_get? found, p.symbol, member,
          congrArg (Placement.mk p.symbol p.parent) component.symm⟩

/-- Of the symbols of a level those without a page above them are declined, all others placed. -/
theorem placementsOn_account (b : AtlasBuild) (level : List GatheredSymbol) :
    (level.foldl assign (b, [])).1.problems.length + (b.placementsOn level).length =
      b.problems.length + level.length := by
  have account := (b.overloads_assigned level).account
  have same : (b.placementsOn level).length = ((b.overloads level).flatMap Prod.snd).length := by
    simp [placementsOn, placementsAt, List.length_flatMap]
  rw [same, overloads]
  simpa using account

section Inserting

theorem get?_insert (b : AtlasBuild) (page : Page) (address : Address) :
    (b.insert page).atlas.pages.get? address =
      (b.atlas.pages.get? address).or (if address = page.address then some page else none) := by
  rw [insert]
  split
  · rename_i inserted
    rw [Atlas.get?_insert? inserted]
    split
    · rename_i here
      rw [here, Atlas.get?_fresh inserted]
      rfl
    · rw [Option.or_none]
  · rename_i refused
    split
    · rename_i here
      obtain ⟨held, found⟩ := Option.isSome_iff_exists.mp (Atlas.insert?_none refused)
      rw [here, found]
      rfl
    · rw [Option.or_none]

/-- An address belongs to the first symbol that is placed there. -/
theorem get?_insertAll (ps : List Placement) (b : AtlasBuild) (address : Address) :
    (b.insertAll ps).atlas.pages.get? address =
      (b.atlas.pages.get? address).or
        ((ps.find? fun p => p.address == address).map Placement.page) := by
  induction ps generalizing b with
  | nil => simp [insertAll]
  | cons p ps ih =>
      rw [insertAll, List.foldl_cons, ← insertAll, ih, get?_insert, Option.or_assoc,
        List.find?_cons]
      congr 1
      rw [← Placement.address]
      by_cases here : address = p.address
      · simp [here]
      · have elsewhere : (p.address == address) = false := beq_false_of_ne (Ne.symm here)
        simp [here, elsewhere]

theorem get?_placeLevels (levels : List (List GatheredSymbol)) (b : AtlasBuild)
    (address : Address) :
    (levels.foldl placeLevel b).atlas.pages.get? address =
      (b.atlas.pages.get? address).or
        (((b.placements levels).find? fun p => p.address == address).map Placement.page) := by
  induction levels generalizing b with
  | nil => simp [placements]
  | cons level levels ih =>
      rw [List.foldl_cons, ih, placements, List.find?_append, Option.map_or, ← Option.or_assoc,
        placeLevel_eq, get?_insertAll, (b.overloads_assigned level).atlas]

end Inserting

section Order

/-- Symbols on levels: those of one level have paths of one length, and the paths on later levels
are longer. -/
structure Stratified (levels : List (List GatheredSymbol)) : Prop where
  even : ∀ level ∈ levels, ∀ s ∈ level, ∀ t ∈ level, s.humanPath.length = t.humanPath.length
  rising : levels.Pairwise fun a b => ∀ s ∈ a, ∀ t ∈ b, s.humanPath.length < t.humanPath.length

theorem Stratified.tail {levels : List (List GatheredSymbol)}
    (strata : Stratified (level :: levels)) : Stratified levels where
  even other member := strata.even other (List.mem_cons_of_mem _ member)
  rising := (List.pairwise_cons.mp strata.rising).2

variable {levels : List (List GatheredSymbol)}

theorem symbol_mem_of_placementsOn (member : p ∈ b.placementsOn level) : p.symbol ∈ level :=
  (mem_placementsOn.mp member).1

theorem symbol_mem_of_placements (member : p ∈ b.placements levels) :
    ∃ level ∈ levels, p.symbol ∈ level := by
  induction levels generalizing b with
  | nil => cases member
  | cons level levels ih =>
      rcases List.mem_append.mp member with here | later
      · exact ⟨level, List.mem_cons_self, symbol_mem_of_placementsOn here⟩
      · obtain ⟨other, listed, inside⟩ := ih later
        exact ⟨other, List.mem_cons_of_mem _ listed, inside⟩

theorem Stratified.lower (strata : Stratified (level :: levels)) {c : AtlasBuild}
    (first : p ∈ b.placementsOn level) (later : q ∈ c.placements levels) : p.depth < q.depth := by
  obtain ⟨other, listed, inside⟩ := symbol_mem_of_placements later
  exact (List.pairwise_cons.mp strata.rising).1 other listed _ (symbol_mem_of_placementsOn first) _
    inside

theorem Stratified.sorted (strata : Stratified levels) (b : AtlasBuild) :
    (b.placements levels).Pairwise fun p q => p.depth ≤ q.depth := by
  induction levels generalizing b with
  | nil => exact .nil
  | cons level levels ih =>
      refine List.pairwise_append.mpr ⟨?_, ih strata.tail _, fun p first q later =>
        (strata.lower first later).le⟩
      refine List.pairwise_of_forall_mem_list fun p first q second => Nat.le_of_eq ?_
      exact strata.even level List.mem_cons_self _ (symbol_mem_of_placementsOn first) _
        (symbol_mem_of_placementsOn second)

theorem Stratified.together (strata : Stratified levels) (one : p ∈ b.placements levels)
    (other : q ∈ b.placements levels) (same : p.depth = q.depth) :
    ∃ c, ∃ level ∈ levels, placementsOn c level ⊆ b.placements levels ∧
      p ∈ placementsOn c level ∧ q ∈ placementsOn c level := by
  induction levels generalizing b with
  | nil => cases one
  | cons level levels ih =>
      rcases List.mem_append.mp one with here | later
      · rcases List.mem_append.mp other with there | after
        · exact ⟨b, level, List.mem_cons_self, List.subset_append_left _ _, here, there⟩
        · exact absurd same (strata.lower here after).ne
      · rcases List.mem_append.mp other with there | after
        · exact absurd same (strata.lower there later).ne'
        · obtain ⟨c, own, listed, among, both⟩ := ih strata.tail later after
          exact ⟨c, own, List.mem_cons_of_mem _ listed,
            List.subset_append_of_subset_right _ among, both⟩

end Order

theorem parent_of_placements {levels : List (List GatheredSymbol)} (wf : b.atlas.WellFormed)
    (fresh : b.atlas.Fresh levels.flatten) (member : p ∈ b.placements levels) :
    p.parent.path ≠ [] ∧ p.parent = b.atlas.address p.parent.path := by
  induction levels generalizing b with
  | nil => cases member
  | cons level levels ih =>
      rcases List.mem_append.mp member with here | later
      · have held := parentOf_has wf (mem_placementsOn.mp here).2.1
        obtain ⟨page, there⟩ := Option.isSome_iff_exists.mp held
        exact ⟨wf.path_ne_nil there, (wf.address_path held).symm⟩
      · obtain ⟨steps, left⟩ := placeLevel_steps level wf fresh
        have below := ih (steps.wellFormed wf) left later
        rwa [Atlas.address, steps.bundle] at below

end AtlasBuild

namespace Gathering

def levels (g : Gathering) : List (List GatheredSymbol) :=
  g.inOrder.splitBy fun s t => s.humanPath.length == t.humanPath.length

theorem flatten_levels (g : Gathering) : g.levels.flatten = g.inOrder := List.flatten_splitBy _ _

theorem inOrder_sorted (g : Gathering) :
    g.inOrder.Pairwise fun s t => s.humanPath.length ≤ t.humanPath.length := by
  have trans (s t u : GatheredSymbol) (first : s.le t = true) (second : t.le u = true) :
      s.le u = true := Std.TransCmp.isLE_trans first second
  have total (s t : GatheredSymbol) : (s.le t || t.le s) = true := isLE_total s t
  refine (List.pairwise_mergeSort trans total g.symbols.values).imp fun {s t} below => ?_
  by_contra longer
  have order : compareOn (fun s : GatheredSymbol => s.humanPath.length) s t = .gt :=
    Nat.compare_eq_gt.mpr (Nat.not_le.mp longer)
  rw [GatheredSymbol.le, compareLex, order] at below
  cases below

theorem levels_stratified (g : Gathering) : AtlasBuild.Stratified g.levels where
  even _ run _ first _ second := AtlasBuild.key_eq_of_mem_splitBy run first second
  rising := AtlasBuild.splitBy_rises g.inOrder_sorted

end Gathering

end Concordance
