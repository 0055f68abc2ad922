import Mathlib
import Concordance.Proofs.Atlas.Hashes
import Concordance.Proofs.Atlas.Siblings
import Concordance.Proofs.Link.Component
import Concordance.Proofs.Text.Cut

/-! # Suffixes that select one page

A component is read in one way after the other until a page fits. A hash behind the name of a
symbol, with its kind before it or without, is split off in full before the name itself is
split, and no other symbol of that name fits it unless its hash or its kind is that hash.
-/

namespace Concordance

open Component

namespace Distinction

/-- A hash and a kind that are words, with dots in the kind alone. -/
structure Worded (d : Distinction) : Prop where
  hash : IsWord d.hash.toList
  kind : IsWord d.kind.toList
  undotted : '.' ∉ d.hash.toList

theorem isWord_of_known : ∀ kind ∈ SymbolKind.known, IsWord kind.toList := by
  have all : (SymbolKind.known.all fun kind => !kind.toList.isEmpty &&
      kind.toList.all fun c => c.isAlphanum || c == '.') = true := by
    decide +kernel
  simp only [List.all_eq_true, Bool.and_eq_true, Bool.not_eq_true', List.isEmpty_eq_false_iff,
    Bool.or_eq_true, beq_iff_eq] at all
  exact fun kind member => ⟨(all kind member).1, (all kind member).2⟩

theorem ofSymbol_worded (precise : String) {kind : String} (known : kind ∈ SymbolKind.known) :
    (ofSymbol precise kind).Worded where
  hash := Text.isWord_base36 _
  kind := isWord_of_known kind known
  undotted := Text.dot_not_mem_base36 _

variable {d e : Distinction}

theorem Worded.fits_hash (worded : d.Worded) :
    e.fits d.hash = true ↔ e.hash = d.hash ∨ e.kind = d.hash := by
  rw [fits_plain worded.undotted worded.hash.hyphen_not_mem]
  exact or_congr eq_comm eq_comm

theorem Worded.fits_kind_hash (worded : d.Worded) (other : e.Worded) :
    e.fits (d.kind ++ "-" ++ d.hash) = true ↔ e.hash = d.hash ∧ e.fitsKind d.kind = true := by
  have whole : (d.kind ++ "-" ++ d.hash).toList = d.kind.toList ++ '-' :: d.hash.toList := by
    simp [String.toList_append]
  have hyphen : '-' ∈ (d.kind ++ "-" ++ d.hash).toList := by simp [whole]
  have ends : Text.cutLast? '-' (d.kind ++ "-" ++ d.hash).toList =
      some (d.kind.toList, d.hash.toList) := by
    rw [whole, Text.cutLast?_append worded.hash.hyphen_not_mem]
  have notHash : d.kind ++ "-" ++ d.hash ≠ e.hash :=
    fun same => other.hash.hyphen_not_mem (same ▸ hyphen)
  have notKind : e.fitsKind (d.kind ++ "-" ++ d.hash) = false := by
    have direct : d.kind ++ "-" ++ d.hash ≠ e.kind :=
      fun same => other.kind.hyphen_not_mem (same ▸ hyphen)
    rw [fitsKind, beq_false_of_ne direct, Bool.false_or, Option.any_eq_false]
    rintro ⟨before, after⟩ cut
    refine beq_false_of_ne fun same => ?_
    -- What follows the first dot would be a kind, and have the hyphen before it.
    obtain ⟨split, -⟩ := Text.cut?_eq_some cut
    have later : '-' ∉ after := by
      rw [← String.toList_ofList (l := after), same]
      exact other.kind.hyphen_not_mem
    have early : '-' ∈ before := by
      rw [split, List.mem_append, List.mem_cons] at hyphen
      rcases hyphen with early | dot | late
      · exact early
      · cases dot
      · exact absurd late later
    obtain ⟨front, back, rfl, absent⟩ := List.eq_append_cons_of_mem early
    have first := Text.cut?_append worded.kind.hyphen_not_mem d.hash.toList
    rw [← whole, split, List.append_assoc, List.cons_append, Text.cut?_append absent] at first
    have hash := (Prod.mk.inj (Option.some.inj first)).2
    exact worded.undotted (hash ▸ by simp)
  simp only [fits, beq_false_of_ne notHash, notKind, ends, Option.any_some, Bool.or_self,
    Bool.false_or, String.ofList_toList, Bool.and_eq_true, beq_iff_eq]
  exact and_congr_left' eq_comm

end Distinction

def Page.fitsReading (p : Page) (reading : Reading) : Bool :=
  p.name == reading.1 && match reading.2 with
    | none => true
    | some suffix => p.distinction.any fun d => d.fits suffix

namespace Atlas

variable {a : Atlas} {p : Address} {n : Page} {component : String}

theorem fitsReading_eq (reading : Reading) (address : Address) :
    a.fitsReading reading address =
      (a.pages.get? address).any fun page => page.fitsReading reading := by
  rw [fitsReading]
  cases a.pages.get? address <;> rfl

def pagesBelow (a : Atlas) (address : Address) : List Page :=
  (a.children address).filterMap a.pages.get?

theorem WellFormed.mem_pagesBelow (wf : a.WellFormed) :
    n ∈ a.pagesBelow p ↔ n.address ∈ a.children p ∧ a.pages.get? n.address = some n := by
  rw [pagesBelow, List.mem_filterMap]
  constructor
  · rintro ⟨address, child, found⟩
    obtain rfl := wf.own found
    exact ⟨child, found⟩
  · rintro ⟨child, found⟩
    exact ⟨_, child, found⟩

/-- A component leads to the only page below another one that fits a reading of it, if no page fits
one that comes before. -/
theorem WellFormed.lookup_component (wf : a.WellFormed) (member : n ∈ a.pagesBelow p)
    (earlier : List Reading) {later : List Reading} {reading : Reading}
    (order : readings component = earlier ++ reading :: later)
    (unfit : ∀ r ∈ earlier, ∀ q ∈ a.pagesBelow p, q.fitsReading r = false)
    (fits : n.fitsReading reading = true)
    (only : ∀ q ∈ a.pagesBelow p, q.fitsReading reading = true → q = n) :
    a.lookup (some p) [component] = .found n := by
  obtain ⟨child, found⟩ := wf.mem_pagesBelow.mp member
  have below {address : Address} {r : Reading} (listed : address ∈ a.children p)
      (fit : a.fitsReading r address = true) :
      ∃ q ∈ a.pagesBelow p, q.address = address ∧ q.fitsReading r = true := by
    rw [fitsReading_eq, Option.any_eq_true] at fit
    obtain ⟨q, there, fit⟩ := fit
    obtain rfl := wf.own there
    exact ⟨q, wf.mem_pagesBelow.mpr ⟨listed, there⟩, rfl, fit⟩
  have selected : a.matching (a.children p) component = [n.address] := by
    rw [matching, order]
    clear order
    induction earlier with
    | nil =>
        have chosen : ∀ address, address ∈ (a.children p).filter (a.fitsReading reading) ↔
            address = n.address := by
          intro address
          rw [List.mem_filter]
          constructor
          · rintro ⟨listed, fit⟩
            obtain ⟨q, inside, rfl, fits⟩ := below listed fit
            rw [only q inside fits]
          · rintro rfl
            refine ⟨child, ?_⟩
            rw [fitsReading_eq, found]
            exact fits
        rw [List.nil_append, fitting]
        split
        · rename_i none
          exact absurd ((chosen n.address).mpr rfl) (none ▸ List.not_mem_nil)
        · rw [sortedSet_eq_singleton]
          exact ⟨(chosen _).mpr rfl, fun y inside => (chosen y).mp inside⟩
    | cons r earlier ih =>
        rw [List.forall_mem_cons] at unfit
        have none : (a.children p).filter (a.fitsReading r) = [] := by
          rw [List.filter_eq_nil_iff]
          intro address listed fit
          obtain ⟨q, inside, _, fit⟩ := below listed fit
          rw [unfit.1 q inside] at fit
          cases fit
        rw [List.cons_append, fitting, none]
        exact ih unfit.2
  exact lookup_found.mpr ⟨_, selected, found⟩

variable {settings : Settings} {inputs : Inputs}

theorem build_worded {address : Address} {page : Page} {d : Distinction}
    (found : (build settings inputs).1.pages.get? address = some page)
    (told : page.distinction = some d) : d.Worded := by
  obtain ⟨q, placed, _, _, _, same⟩ :=
    exists_placement found (.inr (Option.isSome_of_eq_some told))
  obtain rfl := Option.some.inj (told.symm.trans same)
  exact Distinction.ofSymbol_worded _ (kind_of_placements placed)

theorem build_named {address : Address} {page : Page}
    (found : (build settings inputs).1.pages.get? address = some page)
    (kind : page.kind = .symbol) : page.name ≠ "" ∧ page.distinction.isSome = true := by
  obtain ⟨q, placed, _, _, name, told⟩ := exists_placement found (.inl kind)
  have named := (Gathering.ofFiles_named settings.language inputs.symbolGraphs).inOrder
    (Gathering.ofFiles_sound _ _) (symbol_of_placements placed)
  exact ⟨name ▸ named, Option.isSome_of_eq_some told⟩

/-- The hash of a symbol behind its name selects its page below the page that holds it, and so does
its kind with its hash, if its name closes its brackets, no page there has either of these or
the name with the kind for a name of its own, and no other symbol of the name has the hash for
its hash or its kind. -/
theorem lookup_suffix (settings : Settings) (inputs : Inputs) (p : Address) :
    let a := (build settings inputs).1
    ∀ n ∈ a.pagesBelow p, n.kind = .symbol → ∃ d, n.distinction = some d ∧
      (endDepth n.name.toList = 0 →
        (∀ q ∈ a.pagesBelow p, q.name ≠ n.name ++ "-" ++ d.hash ∧
          q.name ≠ n.name ++ "-" ++ d.kind ∧
          q.name ≠ n.name ++ "-" ++ d.kind ++ "-" ++ d.hash) →
        (∀ q ∈ a.pagesBelow p, q ≠ n → q.name = n.name → ∀ e ∈ q.distinction,
          e.hash ≠ d.hash ∧ e.kind ≠ d.hash) →
        a.lookup (some p) [n.name ++ "-" ++ d.hash] = .found n ∧
          a.lookup (some p) [n.name ++ "-" ++ d.kind ++ "-" ++ d.hash] = .found n) := by
  intro a n member kind
  have wf : a.WellFormed := build_wellFormed settings inputs
  obtain ⟨_, found⟩ := wf.mem_pagesBelow.mp member
  obtain ⟨named, told⟩ := build_named found kind
  obtain ⟨d, told⟩ := Option.isSome_iff_exists.mp told
  refine ⟨d, told, fun closed names others => ?_⟩
  have worded := build_worded found told
  have plain {name : String} (none : ∀ q ∈ a.pagesBelow p, q.name ≠ name)
      (suffix : Option String) : ∀ q ∈ a.pagesBelow p, q.fitsReading (name, suffix) = false := by
    intro q inside
    simp [Page.fitsReading, none q inside]
  have own {suffix : String} (fits : d.fits suffix = true) :
      n.fitsReading (n.name, some suffix) = true := by
    simp [Page.fitsReading, told, fits]
  -- Whatever fits a suffix that only this hash or a kind equal to it fits is the page itself.
  have alone {suffix : String} (fits : ∀ e : Distinction, e.Worded → e.fits suffix = true →
      e.hash = d.hash ∨ e.kind = d.hash) :
      ∀ q ∈ a.pagesBelow p, q.fitsReading (n.name, some suffix) = true → q = n := by
    intro q inside fit
    by_contra different
    simp only [Page.fitsReading, Bool.and_eq_true, beq_iff_eq, Option.any_eq_true] at fit
    obtain ⟨name, e, other, fit⟩ := fit
    obtain ⟨hash, kind⟩ := others q inside different name e other
    have there := (wf.mem_pagesBelow.mp inside).2
    exact (fits e (build_worded there other) fit).elim hash kind
  constructor
  · obtain ⟨later, order⟩ := Component.readings_word named closed worded.hash
    refine wf.lookup_component member [_] order ?_
      (own (worded.fits_hash.mpr (.inl rfl))) (alone fun e _ fit => worded.fits_hash.mp fit)
    rw [List.forall_mem_singleton]
    exact plain (fun q inside => (names q inside).1) _
  · obtain ⟨later, order⟩ := Component.readings_words named closed worded.kind worded.hash
    refine wf.lookup_component member [_, _] order ?_
      (own ((worded.fits_kind_hash worded).mpr ⟨rfl, by simp [Distinction.fitsKind]⟩))
      (alone fun e other fit => .inl ((worded.fits_kind_hash other).mp fit).1)
    rw [List.forall_mem_cons, List.forall_mem_singleton]
    exact ⟨plain (fun q inside => (names q inside).2.2) _,
      plain (fun q inside => (names q inside).2.1) _⟩

/-- Of three overloads, two of one kind and one of a kind with a dot, each is selected. -/
theorem lookup_suffix_overloads :
    let overload (precise kind : String) : SymbolDescription :=
      { language := "swift", precise, kindName := "Method", kindIdentifier := kind
        title := "run()", path := ["C", "run()"] }
    let inputs : Inputs := { symbolGraphs := [⟨"Kit.symbols.json", {
      module := "Kit"
      symbols := [
        { language := "swift", precise := "s:C", kindName := "Class"
          kindIdentifier := "swift.class", title := "C", path := ["C"] },
        overload "s:C.a" "swift.method", overload "s:C.b" "swift.method",
        overload "s:C.c" "swift.type.method"] }⟩] }
    let a := (build {} inputs).1
    let p : Address := { bundle := "com.example.documentation", path := ["Kit", "C"] }
    (a.pagesBelow p).map Page.precise? = [some "s:C.a", some "s:C.b", some "s:C.c"] ∧
      ∀ n ∈ a.pagesBelow p, n.kind = .symbol ∧ ∃ d, n.distinction = some d ∧
        a.lookup (some p) [n.name ++ "-" ++ d.hash] = .found n ∧
        a.lookup (some p) [n.name ++ "-" ++ d.kind ++ "-" ++ d.hash] = .found n := by
  intro overload inputs a p
  have symbols : (gathering {} inputs).symbols.values.Pairwise fun s t => s.le t = true := by
    decide +kernel +revert
  have made := build_of_sorted {} inputs symbols .nil
  have facts : (a.pagesBelow p).map Page.precise? = [some "s:C.a", some "s:C.b", some "s:C.c"] ∧
      ∀ n ∈ a.pagesBelow p, n.kind = .symbol ∧ endDepth n.name.toList = 0 ∧
        ∀ d ∈ n.distinction,
          (∀ q ∈ a.pagesBelow p, q.name ≠ n.name ++ "-" ++ d.hash ∧
            q.name ≠ n.name ++ "-" ++ d.kind ∧
            q.name ≠ n.name ++ "-" ++ d.kind ++ "-" ++ d.hash) ∧
          (∀ q ∈ a.pagesBelow p, q ≠ n → q.name = n.name → ∀ e ∈ q.distinction,
            e.hash ≠ d.hash ∧ e.kind ≠ d.hash) := by
    simp only [a, made]
    clear made symbols a
    decide +kernel +revert
  refine ⟨facts.1, fun n member => ?_⟩
  obtain ⟨kind, closed, apart⟩ := facts.2 n member
  obtain ⟨d, told, selected⟩ := lookup_suffix {} inputs p n member kind
  obtain ⟨names, others⟩ := apart d told
  exact ⟨kind, d, told, selected closed names others⟩

end Atlas

end Concordance
