import Mathlib
import Concordance.Proofs.Atlas.Subjects
import Concordance.Proofs.Publication.Files

/-! # Pages below the directory

The names of the pages that hold a page are steps on the way to its file. A name that says to go
up undoes a step, so that with enough of them the way leaves the directory for all pages, and then
the directory that the pages are written to.
-/

namespace Concordance

open FilePath (parts)

namespace FilePath

/-- Where one part of a path leads from a place. There is nothing above the root. -/
def move (place : List String) : PathPart → List String
  | .root => []
  | .here => place
  | .up => place.dropLast
  | .name text => place ++ [text]

def destination (place : List String) (path : String) : List String :=
  (parts path).foldl move place

/-- What the parts of a path come to. -/
structure Way where
  /-- How often it goes up at first. -/
  ups : Nat := 0
  /-- The names that it goes down after that. -/
  names : List String := []
  deriving DecidableEq

namespace Way

/-- Where a way leads from a place. -/
def reach (w : Way) (place : List String) : List String := place.rdrop w.ups ++ w.names

def go (w : Way) : PathPart → Way
  | .up =>
      if w.names = [] then { w with ups := w.ups + 1 } else { w with names := w.names.dropLast }
  | .name text => { w with names := w.names ++ [text] }
  | .root | .here => w

variable {w : Way} {place : List String}

theorem reach_go {part : PathPart} (relative : part ≠ .root) :
    (w.go part).reach place = move (w.reach place) part := by
  cases part with
  | root => exact absurd rfl relative
  | here => rfl
  | name text => simp only [go, reach, move, List.append_assoc]
  | up =>
      by_cases none : w.names = []
      · simp only [go, none, if_true, reach, move, List.append_nil, List.rdrop,
          List.dropLast_eq_take, List.take_take, List.length_take]
        congr 1
        omega
      · simp only [go, none, if_false, reach, move, List.dropLast_append_of_ne_nil none]

theorem reach_foldl {ps : List PathPart} (relative : .root ∉ ps) :
    (ps.foldl go w).reach place = ps.foldl move (w.reach place) := by
  induction ps generalizing w with
  | nil => rfl
  | cons part ps ih =>
      rw [List.mem_cons, not_or] at relative
      rw [List.foldl_cons, List.foldl_cons, ih relative.2, reach_go (Ne.symm relative.1)]

/-- A way does not go up before its start unless more parts of it go up than it had names. -/
theorem ups_foldl {ps : List PathPart} (few : ps.count .up ≤ w.names.length) :
    (ps.foldl go w).ups = w.ups := by
  induction ps generalizing w with
  | nil => rfl
  | cons part ps ih =>
      rw [List.foldl_cons]
      rw [List.count_cons] at few
      cases part with
      | root | here => exact ih (by simpa [go] using few)
      | name text =>
          refine ih ?_
          simp only [go, List.length_append, List.length_singleton]
          simp only [beq_iff_eq, reduceCtorEq, if_false] at few
          omega
      | up =>
          simp only [BEq.rfl, if_true] at few
          have some : w.names ≠ [] := List.ne_nil_of_length_pos (by omega)
          rw [go, if_neg some]
          refine ih ?_
          rw [List.length_dropLast]
          omega

/-- A way leads further down from a place if and only if it goes down again whatever it went up. -/
theorem reach_below_iff : (∃ names ≠ [], w.reach place = place ++ names) ↔
    ∃ names ≠ [], w.names = place.rtake w.ups ++ names := by
  have whole : place.rdrop w.ups ++ place.rtake w.ups = place := List.take_append_drop _ place
  have step (names : List String) : w.reach place = place ++ names ↔
      w.names = place.rtake w.ups ++ names := by
    calc w.reach place = place ++ names
      _ ↔ place.rdrop w.ups ++ w.names = place.rdrop w.ups ++ (place.rtake w.ups ++ names) := by
        rw [reach, ← List.append_assoc, whole]
      _ ↔ w.names = place.rtake w.ups ++ names := List.append_right_inj _
  simp only [step]

end Way

end FilePath

namespace PublishedPage

open FilePath

/-- The way to the file of a page, from the directory that the pages are written to. -/
def way (p : PublishedPage) : Way := (.name "data" :: siteParts p.site).foldl Way.go {}

/-- The file of a page is below a directory, for who stands at a place. -/
def Below (p : PublishedPage) (place : List String) (dir : String) : Prop :=
  ∃ names ≠ [], destination place (p.file dir) = destination place dir ++ names

variable {p : PublishedPage} {place : List String} {dir : String}

theorem root_not_mem_siteParts : PathPart.root ∉ siteParts p.site := by
  generalize p.site = site
  obtain ⟨isTutorial, above, last⟩ := site
  have named (text : String) : partOf text ≠ .root := by
    rw [partOf]
    split_ifs <;> exact PathPart.noConfusion
  cases last <;> simp [siteParts, named]

theorem destination_file (p : PublishedPage) (place : List String) (dir : String) :
    destination place (p.file dir) = p.way.reach (destination place dir) := by
  have start : ({} : Way).reach (destination place dir) = destination place dir := by
    simp [Way.reach]
  rw [way, Way.reach_foldl (by simp [root_not_mem_siteParts]), start, destination, parts_file,
    List.foldl_append]
  rfl

theorem names_way_ne_nil (p : PublishedPage) : p.way.names ≠ [] := by
  obtain ⟨front, last, ends⟩ : ∃ front last,
      .name "data" :: siteParts p.site = front ++ [.name last] := by
    generalize p.site = site
    obtain ⟨isTutorial, above, last⟩ := site
    cases last with
    | none => exact ⟨[.name "data"], _, rfl⟩
    | some last => exact ⟨.name "data" :: .name (rootName isTutorial) :: above.map partOf, _, rfl⟩
  rw [way, ends, List.foldl_append]
  exact List.append_ne_nil_of_right_ne_nil _ (List.cons_ne_nil _ _)

theorem count_partOf (above : List String) : (above.map partOf).count .up = above.count ".." :=
  List.count_map_of_injective above partOf partOf_injective ".."

/-- Two names that go up are undone by the directories for all pages and for those of a root. -/
theorem ups_way (few : (p.address.path.dropLast.map Text.lower).count ".." ≤ 2) :
    p.way.ups = 0 := by
  have above : p.site.2.1.count ".." ≤ 2 := by
    rwa [site, List.count_filter (by decide)]
  rw [way]
  generalize p.site = site at above
  obtain ⟨isTutorial, above, last⟩ := site
  cases last with
  | none => rfl
  | some last =>
      rw [siteParts, List.foldl_cons, List.foldl_cons, Way.ups_foldl]
      · rfl
      · simpa [count_partOf, Way.go] using above

theorem below_iff_names : p.Below place dir ↔
    ∃ names ≠ [], p.way.names = (destination place dir).rtake p.way.ups ++ names := by
  simp only [Below, destination_file]
  exact Way.reach_below_iff

theorem exists_not_below (climbs : p.way.ups ≠ 0) : ∃ place, ¬ p.Below place "" := by
  obtain ⟨first, rest, names⟩ := List.exists_cons_of_ne_nil (names_way_ne_nil p)
  have other : first ++ "x" ≠ first := by
    intro same
    have lengths := congrArg String.length same
    simp at lengths
  refine ⟨[first ++ "x"], fun below => ?_⟩
  have here : destination [first ++ "x"] "" = [first ++ "x"] := rfl
  have last : [first ++ "x"].rtake p.way.ups = [first ++ "x"] := by
    rw [List.rtake, List.length_singleton, Nat.sub_eq_zero_of_le (by omega), List.drop_zero]
  obtain ⟨rest', _, same⟩ := below_iff_names.mp below
  rw [here, last, names] at same
  exact other (List.cons.inj same).1.symm

/-- The file of a page is below the directory that the pages are written to, for who stands at a
place, if and only if the way to it goes down again whatever it goes up. So it is below every
directory if and only if it does not go up at first, and that holds if no more than two of the pages
that hold the page are named as the directory above. -/
theorem below_iff (p : PublishedPage) :
    (∀ place dir, p.Below place dir ↔
      ∃ names ≠ [], p.way.names = (destination place dir).rtake p.way.ups ++ names) ∧
    ((∀ place dir, p.Below place dir) ↔ p.way.ups = 0) ∧
    ((p.address.path.dropLast.map Text.lower).count ".." ≤ 2 → ∀ place dir, p.Below place dir) := by
  have stays (flat : p.way.ups = 0) (place : List String) (dir : String) : p.Below place dir :=
    below_iff_names.mpr ⟨p.way.names, names_way_ne_nil p, by simp [flat]⟩
  refine ⟨fun place dir => below_iff_names, ⟨fun always => ?_, stays⟩,
    fun few => stays (ups_way few)⟩
  by_contra climbs
  obtain ⟨place, not⟩ := exists_not_below climbs
  exact not (always place "")

end PublishedPage

namespace Project

theorem publishPages_places (p : Project) (pages : List Page) (shared : Shared) :
    (p.publishPages pages shared).1.map (fun r => (r.page.kind, r.page.address)) =
      pages.map fun page => (page.kind, page.address) := by
  induction pages generalizing shared with
  | nil => rfl
  | cons page rest ih =>
      rw [publishPages, List.map_cons, List.map_cons, ih]
      rfl

theorem exists_published {p : Project} {kind : PageKind} {address : Address}
    (shown : (kind, address) ∈ p.atlas.shown.map fun page => (page.kind, page.address)) :
    ∃ page ∈ p.publish.pages, page.kind = kind ∧ page.address = address := by
  rw [← publishPages_places p p.atlas.shown {}] at shown
  obtain ⟨result, member, same⟩ := List.mem_map.mp shown
  exact ⟨result.page, List.mem_map_of_mem member, Prod.mk.inj same⟩

end Project

namespace Publication

/-- Four symbols named as the directory above, one below the other, lead out of the directory for
the pages. -/
theorem files_outside :
    let up (n : Nat) : List String := List.replicate n ".."
    let symbol (precise : String) (path : List String) : SymbolDescription :=
      { language := "swift", precise, kindName := "class", kindIdentifier := "swift.class"
        title := path.getLastD "", path }
    let inputs : Inputs := { symbolGraphs := [⟨"MyKit.symbols.json", {
      module := "MyKit"
      symbols := [symbol "s:0" (up 1), symbol "s:1" (up 2), symbol "s:2" (up 3),
        symbol "s:3" (up 4), symbol "s:4" (up 4 ++ ["outside"]),
        symbol "s:5" (up 4 ++ ["outside", "Page"])] }⟩] }
    let pub := (Project.ofInputs { bundle := "com.example.MyKit" } inputs []).publish
    (∃ p ∈ pub.pages, p.file "out" = "out/data/documentation/mykit/../../...json" ∧
      ∀ place dir, p.Below place dir) ∧
    ∃ p ∈ pub.pages,
      p.file "out" = "out/data/documentation/mykit/../../../../outside/page.json" ∧
      FileTree.goal (p.file "out") = ["outside", "page.json"] ∧ ¬ p.Below ["home"] "out" := by
  intro up symbol inputs pub
  have symbols : (Atlas.gathering { bundle := "com.example.MyKit" } inputs).symbols.values.Pairwise
      fun s t => s.le t = true := by
    decide +kernel +revert
  have made := Atlas.build_of_sorted { bundle := "com.example.MyKit" } inputs symbols .nil
  have shown : ∀ path ∈ [up 3, up 4 ++ ["outside", "Page"]],
      (PageKind.symbol, { bundle := "com.example.MyKit", path := "MyKit" :: path : Address }) ∈
        (Project.ofInputs { bundle := "com.example.MyKit" } inputs []).atlas.shown.map
          fun page => (page.kind, page.address) := by
    simp only [Project.ofInputs, made]
    clear made symbols pub
    decide +kernel +revert
  simp only [List.forall_mem_cons] at shown
  obtain ⟨a, member, kind, address⟩ := Project.exists_published shown.1
  obtain ⟨b, member', kind', address'⟩ := Project.exists_published shown.2.1
  have inside : a.file "out" = "out/data/documentation/mykit/../../...json" := by
    simp only [PublishedPage.file, kind, address]
    decide +kernel
  have outside : b.file "out" = "out/data/documentation/mykit/../../../../outside/page.json" := by
    simp only [PublishedPage.file, kind', address']
    decide +kernel
  refine ⟨⟨a, member, inside, (PublishedPage.below_iff a).2.2 ?_⟩, b, member', outside, ?_,
    fun below => ?_⟩
  · rw [address]
    decide +kernel
  · rw [outside]
    decide +kernel
  · have way : b.way = { ups := 1, names := ["outside", "page.json"] } := by
      simp only [PublishedPage.way, PublishedPage.site, kind', address']
      decide +kernel
    obtain ⟨names, _, same⟩ := ((PublishedPage.below_iff b).1 ["home"] "out").mp below
    have last : (FilePath.destination ["home"] "out").rtake 1 = ["out"] := by decide
    rw [way, last] at same
    simp at same

end Publication

end Concordance
