import Mathlib
import Concordance.Proofs.Atlas.Fresh
import Concordance.Proofs.Atlas.WellFormed

/-! # Building goes step by step

An atlas is built from an empty one by inserting modules, symbols and documents,
each below a page that is there, and by adding to the pages of symbols. Whatever
such steps preserve holds of every atlas that was built.
-/

namespace Concordance

namespace Atlas

variable {a b c : Atlas}

/-- What the links of pages have to be: if they are to be resolved, they were read, and if they are
resolved, their pages are there. -/
structure Knows (a : Atlas) (l : Link) : Prop where
  parsed : ∀ link, l.destination = .unresolved link → link.Parsed
  held : ∀ target, l.destination = .resolved target → a.pages.has target = true

/-- One step of building. Modules come before symbols, and every symbol comes once. -/
inductive Step : Atlas → Atlas → Prop where
  | module {a b : Atlas} {language name : String} (early : ∀ precise, ¬ a.Describes precise)
      (inserted : a.insert? (AtlasBuild.modulePage a.bundle language name) = some b) : Step a b
  | symbol {a b : Atlas} {parent : Address} {component : String} {s : GatheredSymbol}
      (held : a.pages.has parent = true) (new : ¬ a.Describes s.precise) (plain : s.Plain)
      (inserted : a.insert? (AtlasBuild.symbolPage parent component s) = some b) : Step a b
  | document {a b : Atlas} {home : String} {d : Document} {content : Content}
      (parsed : d.parse = .ok (.page content)) (held : a.pages.has (a.address [home]) = true)
      (inserted : a.insert? (AtlasBuild.documentPage (a.address [home]) d content) = some b) :
      Step a b
  | relate {a : Atlas} {address : Address} {relation : Relation}
      (known : a.Knows relation.target) :
      Step a (a.editContent address (AtlasBuild.addRelation relation))
  | extend {a : Atlas} {address : Address} {docs : Markup} (read : docs.Written) :
      Step a (a.editContent address (AtlasBuild.addDocs docs))

abbrev Steps : Atlas → Atlas → Prop := Relation.ReflTransGen Step

theorem Step.bundle (step : Step a b) : b.bundle = a.bundle := by
  cases step with
  | module _ inserted => exact bundle_insert? inserted
  | symbol _ _ _ inserted => exact bundle_insert? inserted
  | document _ _ inserted => exact bundle_insert? inserted
  | relate => rfl
  | extend => rfl

theorem Step.has (step : Step a b) {address : Address} (held : a.pages.has address = true) :
    b.pages.has address = true := by
  cases step with
  | module _ inserted => exact has_insert? inserted held
  | symbol _ _ _ inserted => exact has_insert? inserted held
  | document _ _ inserted => exact has_insert? inserted held
  | relate => rw [has_editContent, held]
  | extend => rw [has_editContent, held]

theorem Step.wellFormed (step : Step a b) (wf : a.WellFormed) : b.WellFormed := by
  cases step with
  | module _ inserted =>
      exact wf.insert (.module rfl rfl rfl rfl) (fun _ _ content => by cases content) inserted
  | @symbol _ parent component s held _ _ inserted =>
      have same : a.address parent.path = parent := wf.address_path held
      have own : (AtlasBuild.symbolPage parent component s).address =
          a.address (parent.path ++ [component]) := by
        rw [← same]
        rfl
      exact wf.insert (.symbol (congrArg some same.symm) (same.symm ▸ held) own rfl rfl)
        (fun _ _ content => by cases content) inserted
  | @document _ home d content parsed held inserted =>
      refine wf.insert (.document rfl held rfl rfl) (fun title target redirect => ?_) inserted
      exact (Document.page_of_ofBlocks parsed).2.2 title target redirect
  | relate => exact wf.edit (addRelation_symbolEdit _) _
  | extend => exact wf.edit (addDocs_symbolEdit _) _

theorem Steps.bundle (steps : Steps a b) : b.bundle = a.bundle := by
  induction steps with
  | refl => rfl
  | tail _ step ih => rw [step.bundle, ih]

theorem Steps.has (steps : Steps a b) {address : Address} (held : a.pages.has address = true) :
    b.pages.has address = true := by
  induction steps with
  | refl => exact held
  | tail _ step ih => exact step.has ih

theorem Steps.wellFormed (steps : Steps a b) (wf : a.WellFormed) : b.WellFormed := by
  induction steps with
  | refl => exact wf
  | tail _ step ih => exact step.wellFormed ih

/-- A fold goes step by step if each of its rounds does, given what holds of the rounds left. -/
theorem steps_foldl {σ β : Type} (atlas : σ → Atlas) (f : σ → β → σ) (left : σ → List β → Prop)
    (l : List β) (s : σ)
    (each : ∀ t, Steps (atlas s) (atlas t) → ∀ x rest, left t (x :: rest) →
      Steps (atlas t) (atlas (f t x)) ∧ left (f t x) rest)
    (start : left s l) :
    Steps (atlas s) (atlas (l.foldl f s)) ∧ left (l.foldl f s) [] := by
  induction l generalizing s with
  | nil => exact ⟨.refl, start⟩
  | cons x l ih =>
      obtain ⟨first, next⟩ := each s .refl x l start
      obtain ⟨more, done⟩ := ih (f s x) (fun t later => each t (first.trans later)) next
      exact ⟨first.trans more, done⟩

end Atlas

instance : Std.TransOrd OverloadPlace :=
  inferInstanceAs (Std.TransCmp
    (compareLex (compareOn OverloadPlace.parent) (compareOn OverloadPlace.name)))

instance : Std.LawfulEqOrd OverloadPlace where
  eq_of_compare {x y} order := by
    obtain ⟨parent, name⟩ := compareLex_eq_eq.mp order
    cases x
    cases y
    congr
    · exact Std.LawfulEqOrd.eq_of_compare parent
    · exact Std.LawfulEqOrd.eq_of_compare name

namespace AtlasBuild

open Atlas (Steps Step steps_foldl)

variable {b : AtlasBuild}

section Modules

theorem addModule_steps (language : String) (early : ∀ precise, ¬ b.atlas.Describes precise)
    (module : String) :
    Steps b.atlas (b.addModule language module).atlas ∧
      ∀ precise, ¬ (b.addModule language module).atlas.Describes precise := by
  rw [addModule]
  split
  · rename_i inserted
    refine ⟨.single (.module early inserted), fun precise described => ?_⟩
    rcases (Atlas.describes_insert? inserted).mp described with before | ⟨kind, _⟩
    · exact early precise before
    · cases kind
  · exact ⟨.refl, early⟩

theorem addModule_has (language : String) (b : AtlasBuild) (module : String) :
    (b.addModule language module).atlas.pages.has (b.atlas.address [module]) = true := by
  rw [addModule]
  split
  · rename_i inserted
    exact Atlas.has_insert?_self inserted
  · rename_i refused
    exact Atlas.insert?_none refused

theorem addModule_of_has (language : String) {module : String}
    (held : b.atlas.pages.has (b.atlas.address [module]) = true) :
    b.addModule language module = b := by
  have taken : b.atlas.insert? (modulePage b.atlas.bundle language module) = none := if_pos held
  rw [addModule, taken]

theorem addModules_steps (language : String) (modules : List String)
    (early : ∀ precise, ¬ b.atlas.Describes precise) :
    Steps b.atlas (modules.foldl (addModule language) b).atlas ∧
      (∀ precise, ¬ (modules.foldl (addModule language) b).atlas.Describes precise) ∧
      ∀ module ∈ modules, (modules.foldl (addModule language) b).atlas.pages.has
        (b.atlas.address [module]) = true := by
  induction modules generalizing b with
  | nil => exact ⟨.refl, early, fun _ member => absurd member List.not_mem_nil⟩
  | cons module modules ih =>
      obtain ⟨first, still⟩ := addModule_steps language early module
      obtain ⟨more, done, held⟩ := ih still
      have same (path : List String) :
          (b.addModule language module).atlas.address path = b.atlas.address path := by
        simp only [Atlas.address, first.bundle]
      refine ⟨first.trans more, done, fun name member => ?_⟩
      rcases List.mem_cons.mp member with rfl | member
      · exact more.has (addModule_has language b name)
      · exact same _ ▸ held name member

end Modules

section Symbols

variable {rest : List GatheredSymbol}

theorem insertSymbol_steps {parent : Address} {component : String} {s : GatheredSymbol}
    (held : b.atlas.pages.has parent = true) (fresh : b.atlas.Fresh (s :: rest)) :
    Steps b.atlas (b.insert (symbolPage parent component s)).atlas ∧
      (b.insert (symbolPage parent component s)).atlas.Fresh rest := by
  have first := List.mem_cons_self (a := s) (l := rest)
  rw [insert]
  split
  · rename_i inserted
    exact ⟨.single (.symbol held (fresh.unused s first) (fresh.plain s first) inserted),
      fresh.insert inserted⟩
  · exact ⟨.refl, fresh.subperm (List.sublist_cons_self s rest).subperm⟩

theorem parentOf_has (wf : b.atlas.WellFormed) {s : GatheredSymbol} {parent : Address}
    (found : parentOf b.atlas s = .ok parent) : b.atlas.pages.has parent = true := by
  simp only [parentOf] at found
  split at found
  · rename_i owner known
    cases found
    obtain ⟨precise, _, known⟩ := Option.bind_eq_some_iff.mp known
    exact wf.precise known
  · split at found
    · rename_i only listed
      cases found
      exact wf.named (listed ▸ List.mem_singleton_self _)
    · cases found
    · cases found

/-- Finding the places of symbols inserts nothing. The places are below pages that are there, and no
symbol gets two. -/
theorem assign_places (level : List GatheredSymbol) (state : AtlasBuild × Overloads)
    (wf : state.1.atlas.WellFormed) (rising : Assoc.Rising state.2)
    (held : ∀ entry ∈ state.2, state.1.atlas.pages.has entry.1.parent = true) :
    (level.foldl assign state).1.atlas = state.1.atlas ∧
      (∀ entry ∈ (level.foldl assign state).2,
        state.1.atlas.pages.has entry.1.parent = true) ∧
      ((level.foldl assign state).2.flatMap Prod.snd).Subperm
        (level ++ state.2.flatMap Prod.snd) := by
  induction level generalizing state with
  | nil => exact ⟨rfl, held, .refl _⟩
  | cons s level ih =>
      obtain ⟨b, overloads⟩ := state
      rw [List.foldl_cons]
      cases found : parentOf b.atlas s with
      | ok parent =>
          simp only [assign, found]
          have grown := Assoc.Rising.flatMap_put_append rising ⟨parent, s.name⟩ s
          obtain ⟨same, below, fewer⟩ := ih
            (b, overloads.put ⟨parent, s.name⟩ ((overloads.get? ⟨parent, s.name⟩).getD [] ++ [s]))
            wf (rising.put _ _) fun entry member => by
              rcases Assoc.mem_put member with same | member
              · rw [same]
                exact parentOf_has wf found
              · exact held entry member
          refine ⟨same, below, fewer.trans ?_⟩
          exact ((List.Perm.append_left level grown).trans List.perm_middle).subperm
      | error message =>
          simp only [assign, found]
          obtain ⟨same, below, fewer⟩ := ih (b.decline message s.source, overloads) wf rising held
          exact ⟨same, below, fewer.trans (List.sublist_cons_self s _).subperm⟩

@[simp] theorem length_components (name : String) (members : List Distinction) :
    (Distinction.components name members).length = members.length := by
  fun_cases Distinction.components name members <;> simp

theorem addOverloads_steps (place : OverloadPlace) (members : List GatheredSymbol)
    (held : b.atlas.pages.has place.parent = true) (fresh : b.atlas.Fresh (members ++ rest)) :
    Steps b.atlas (b.addOverloads place members).atlas ∧
      (b.addOverloads place members).atlas.Fresh rest := by
  refine steps_foldl AtlasBuild.atlas _ (fun c left => c.atlas.Fresh (left.map Prod.fst ++ rest)) _ b
    (fun c earlier member left fresh => insertSymbol_steps (earlier.has held) fresh)
    (fresh.subperm ?_)
  rw [List.map_fst_zip (by simp)]

theorem placeLevel_steps (level : List GatheredSymbol) (wf : b.atlas.WellFormed)
    (fresh : b.atlas.Fresh (level ++ rest)) :
    Steps b.atlas (b.placeLevel level).atlas ∧ (b.placeLevel level).atlas.Fresh rest := by
  obtain ⟨same, held, fewer⟩ := assign_places level (b, []) wf List.Pairwise.nil
    (fun _ member => absurd member List.not_mem_nil)
  rw [placeLevel]
  rcases assigned : level.foldl assign (b, []) with ⟨b', overloads⟩
  simp only [assigned, List.flatMap_nil, List.append_nil] at same held fewer
  have placed := steps_foldl AtlasBuild.atlas
    (fun b (entry : OverloadPlace × List GatheredSymbol) => b.addOverloads entry.1 entry.2)
    (fun c left => (∀ entry ∈ left, b.atlas.pages.has entry.1.parent = true) ∧
      c.atlas.Fresh (left.flatMap Prod.snd ++ rest))
    overloads b'
    (fun c earlier entry left ⟨held, fresh⟩ => by
      rw [List.flatMap_cons, List.append_assoc] at fresh
      have there := held entry List.mem_cons_self
      obtain ⟨more, fresh⟩ := addOverloads_steps entry.1 entry.2 (earlier.has (same ▸ there)) fresh
      exact ⟨more, fun e member => held e (List.mem_cons_of_mem _ member), fresh⟩)
    ⟨held, same ▸ fresh.subperm ((List.subperm_append_right rest).mpr fewer)⟩
  rw [same] at placed
  exact ⟨placed.1, placed.2.2⟩

theorem placeSymbols_steps (symbols : List GatheredSymbol) (wf : b.atlas.WellFormed)
    (fresh : b.atlas.Fresh symbols) : Steps b.atlas (b.placeSymbols symbols).atlas := by
  refine (steps_foldl AtlasBuild.atlas _ (fun c left => c.atlas.Fresh left.flatten) _ b
    (fun c earlier level left fresh => placeLevel_steps level (earlier.wellFormed wf) fresh) ?_).1
  rw [List.flatten_splitBy]
  exact fresh

end Symbols

section Relations

theorem relationTarget?_known {atlas : Atlas} (wf : atlas.WellFormed) {r : GatheredRelation}
    {link : Link} (made : relationTarget? atlas r = some link) : atlas.Knows link := by
  simp only [relationTarget?] at made
  split at made
  · rename_i known
    cases made
    refine ⟨fun other same => (nomatch same), fun target same => ?_⟩
    cases same
    exact wf.precise known
  · obtain ⟨fallback, _, made⟩ := Option.bind_eq_some_iff.mp made
    split at made
    · rename_i read
      cases made
      exact ⟨(Link.written_of_parsed ⟨_, read⟩ _).parsed, fun target same => (nomatch same)⟩
    · cases made

theorem relate_steps (wf : b.atlas.WellFormed) (relation : GatheredRelation) :
    Steps b.atlas (b.relate relation).atlas := by
  rw [relate]
  split
  · rename_i made _
    exact .single (.relate (relationTarget?_known wf made))
  · exact .refl

theorem relate_describes (relation : GatheredRelation) {precise : String}
    (described : (b.relate relation).atlas.Describes precise) : b.atlas.Describes precise := by
  rw [relate] at described
  split at described
  · exact Atlas.describes_editContent (Atlas.addRelation_preciseEdit _) described
  · exact described

end Relations

theorem addGathering_steps (language : String) {g : Gathering} (sound : g.Sound)
    (wf : b.atlas.WellFormed) (early : ∀ precise, ¬ b.atlas.Describes precise) :
    Steps b.atlas (b.addGathering language g).atlas ∧
      (∀ module ∈ g.modules,
        (b.addGathering language g).atlas.pages.has (b.atlas.address [module]) = true) ∧
      (g.modules = [] → ∀ precise, ¬ (b.addGathering language g).atlas.Describes precise) := by
  simp only [addGathering]
  let start : AtlasBuild := { b with problems := b.problems ++ g.problems }
  obtain ⟨modules, still, held⟩ := addModules_steps (b := start) language g.modules early
  have symbols := placeSymbols_steps g.inOrder (modules.wellFormed wf)
    (Atlas.fresh_inOrder sound still)
  have placed := symbols.wellFormed (modules.wellFormed wf)
  obtain ⟨relations, described⟩ := steps_foldl AtlasBuild.atlas relate
    (fun c _ => ∀ precise, c.atlas.Describes precise →
      ((g.modules.foldl (addModule language) start).placeSymbols g.inOrder).atlas.Describes precise)
    g.relations _
    (fun c earlier relation _ before => ⟨relate_steps (earlier.wellFormed placed) relation,
      fun precise described => before precise (relate_describes relation described)⟩)
    (fun _ described => described)
  refine ⟨(modules.trans symbols).trans relations,
    fun module member => relations.has (symbols.has (held module member)), fun none precise => ?_⟩
  have nothing : g.inOrder = [] := by simp [Gathering.inOrder, Assoc.values, sound.modules none]
  intro found
  have before := described precise found
  simp only [nothing, none, List.foldl_nil] at before
  exact early precise before

section Documents

theorem addParsed_steps {home : String} {state : AtlasBuild × List Extension} {d : Document}
    {made : Except MalformedDocument ParsedDocument} (parsed : d.parse = made)
    (held : state.1.atlas.pages.has (state.1.atlas.address [home]) = true)
    (read : ∀ e ∈ state.2, e.docs.Written) :
    Steps state.1.atlas (addParsed (state.1.atlas.address [home]) state d made).1.atlas ∧
      ∀ e ∈ (addParsed (state.1.atlas.address [home]) state d made).2, e.docs.Written := by
  rcases made with m | content | ⟨target, docs⟩
  · exact ⟨.refl, read⟩
  · refine ⟨?_, read⟩
    simp only [addParsed, insert]
    split
    · rename_i inserted
      exact .single (.document parsed held inserted)
    · exact .refl
  · refine ⟨.refl, fun e member => ?_⟩
    rcases List.mem_append.mp member with member | member
    · exact read e member
    · cases List.mem_singleton.mp member
      exact Document.extension_of_ofBlocks parsed

theorem addDocument_steps {home : String} {state : AtlasBuild × List Extension} (d : Document)
    (held : state.1.atlas.pages.has (state.1.atlas.address [home]) = true)
    (read : ∀ e ∈ state.2, e.docs.Written) :
    Steps state.1.atlas (addDocument (state.1.atlas.address [home]) state d).1.atlas ∧
      ∀ e ∈ (addDocument (state.1.atlas.address [home]) state d).2, e.docs.Written := by
  rw [addDocument]
  exact addParsed_steps (Eq.refl d.parse) held read

theorem extend_steps (root : Address) (b : AtlasBuild) {e : Extension} (read : e.docs.Written) :
    Steps b.atlas (extend root b e).atlas := by
  rw [extend]
  split
  · split
    · exact .single (.extend read)
    · exact .refl
  · exact .refl
  · exact .refl

theorem addDocuments_steps (home : String) (documents : List Document)
    (held : b.atlas.pages.has (b.atlas.address [home]) = true) :
    Steps b.atlas (b.addDocuments (b.atlas.address [home]) documents).atlas := by
  rw [addDocuments]
  have pages := steps_foldl (fun state : AtlasBuild × List Extension => state.1.atlas)
    (addDocument (b.atlas.address [home])) (fun state _ => ∀ e ∈ state.2, e.docs.Written) documents
    (b, []) (fun state earlier d _ read => by
      have same : b.atlas.address [home] = state.1.atlas.address [home] := by
        simp only [Atlas.address, earlier.bundle]
      have there := earlier.has held
      rw [same] at there ⊢
      exact addDocument_steps d there read)
    (fun _ member => absurd member List.not_mem_nil)
  rcases folded : documents.foldl (addDocument (b.atlas.address [home])) (b, []) with
    ⟨b', extensions⟩
  simp only [folded] at pages
  refine pages.1.trans (steps_foldl AtlasBuild.atlas (extend (b.atlas.address [home]))
    (fun _ left => ∀ e ∈ left, e.docs.Written) extensions b' (fun c _ e left read => ?_) pages.2).1
  exact ⟨extend_steps _ c (read e List.mem_cons_self),
    fun e member => read e (List.mem_cons_of_mem _ member)⟩

end Documents

end AtlasBuild

namespace Atlas

/-- Every atlas is built step by step from an empty one. -/
theorem build_steps (settings : Settings) (inputs : Inputs) :
    Steps { bundle := settings.bundle } (build settings inputs).1 := by
  rw [build]
  let start : AtlasBuild := { atlas := { bundle := settings.bundle } }
  let g := Gathering.ofFiles settings.language inputs.symbolGraphs
  let home := AtlasBuild.homeModule settings g
  obtain ⟨gathered, named, none⟩ := AtlasBuild.addGathering_steps (b := start) settings.language
    (Gathering.ofFiles_sound settings.language inputs.symbolGraphs) (WellFormed.empty settings.bundle)
    (fun _ => not_describes_empty _)
  let b := start.addGathering settings.language g
  have before : b.atlas.address [home] = { bundle := settings.bundle, path := [home] } := by
    rw [address, gathered.bundle]
  -- The home module is one of those gathered, or else there are no symbols yet.
  have modules : Steps start.atlas (b.addModule settings.language home).atlas := by
    cases gatheredModules : g.modules with
    | nil => exact gathered.trans (AtlasBuild.addModule_steps _ (none gatheredModules) home).1
    | cons first others =>
        have held := named home (by simp [home, AtlasBuild.homeModule, g, gatheredModules])
        rw [AtlasBuild.addModule_of_has (b := b) settings.language (before.symm ▸ held)]
        exact gathered
  have after : (b.addModule settings.language home).atlas.address [home] =
      { bundle := settings.bundle, path := [home] } := by
    simp only [address, modules.bundle, start]
  have held := AtlasBuild.addModule_has settings.language b home
  rw [before, ← after] at held
  have documents := AtlasBuild.addDocuments_steps home
    (inputs.documents.mergeSort fun d e => FilePath.le d.path e.path) held
  rw [after] at documents
  exact modules.trans documents

theorem build_wellFormed (settings : Settings) (inputs : Inputs) :
    (build settings inputs).1.WellFormed :=
  (build_steps settings inputs).wellFormed (.empty _)

/-- What atlases there are. -/
inductive Made : Atlas → Prop where
  | empty : Made { bundle := "" }
  | built (settings : Settings) (inputs : Inputs) : Made (build settings inputs).1

theorem Made.wellFormed {a : Atlas} (made : a.Made) : a.WellFormed := by
  cases made with
  | empty => exact .empty ""
  | built settings inputs => exact build_wellFormed settings inputs

end Atlas

end Concordance
