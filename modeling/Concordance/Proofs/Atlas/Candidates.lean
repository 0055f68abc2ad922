import Mathlib
import Concordance.Proofs.Atlas.Lookup
import Concordance.Proofs.Atlas.Steps
import Concordance.Proofs.Link.Address

/-! # What lookups answer with

The answer to a lookup are its candidates, all of them. Each is reached by a way down on which
every page fits its component, and whatever is reached by a way on which every page has its
component for a name is among them: no other reading comes before the plain name. One page is
given for an answer only if it is the only candidate.
-/

namespace Concordance

/-- The pages that a lookup answers with. -/
def Lookup.answers : Lookup → List Address
  | .ambiguous addresses => addresses
  | .found page => [page.address]
  | .notFound => []

namespace Atlas

variable {a : Atlas} {start : List Address} {components : List String} {x : Address}

/-- A way down through pages that fit components: the first page is one of given pages, and each
further page stands below the one before it. -/
inductive Way (a : Atlas) (fits : String → Address → Prop) :
    List Address → List String → Address → Prop where
  | last {start : List Address} {component : String} {x : Address} (member : x ∈ start)
      (fit : fits component x) : Way a fits start [component] x
  | down {start : List Address} {component : String} {p : Address} {rest : List String}
      {x : Address} (member : p ∈ start) (fit : fits component p)
      (below : Way a fits (a.children p) rest x) : Way a fits start (component :: rest) x

/-- A page has a component for its name, as it is written. -/
def Named (a : Atlas) (component : String) (address : Address) : Prop :=
  ∃ page, a.pages.get? address = some page ∧ page.name = component

/-- Of given pages, those that fit a component, as early among its readings as any of them. -/
def foremost (a : Atlas) (component : String) (pages : Set Address) : Set Address :=
  {x ∈ pages | a.Fits component x ∧ ∀ y ∈ pages, a.rank component x ≤ a.rank component y}

/-- The pages that components lead to from given pages: those that fit the last component, of the
pages below all that fit the components before it. -/
def candidates (a : Atlas) : List String → Set Address → Set Address
  | [], _ => ∅
  | [component], pages => a.foremost component pages
  | component :: rest, pages =>
      a.candidates rest {x | ∃ p ∈ a.foremost component pages, x ∈ a.children p}

theorem Fits.held {component : String} (fits : a.Fits component x) :
    ∃ page, a.pages.get? x = some page := by
  obtain ⟨reading, _, fit⟩ := fits
  rw [fitsReading] at fit
  split at fit
  · cases fit
  · rename_i page found
    exact ⟨page, found⟩

theorem Named.fits {component : String} (named : a.Named component x) :
    a.Fits component x ∧ a.rank component x = 0 := by
  obtain ⟨page, found, name⟩ := named
  have fit : a.fitsReading (component, none) x = true := by
    simp [fitsReading, found, name]
  refine ⟨⟨_, List.mem_cons_self, fit⟩, ?_⟩
  rw [rank, Component.readings, List.findIdx_cons, fit]
  rfl

theorem Way.of_below {fits : String → Address → Prop} {pages : List Address}
    (way : a.Way fits (pages.flatMap a.children) components x) :
    ∃ p ∈ pages, a.Way fits (a.children p) components x := by
  cases way with
  | last member fit =>
      obtain ⟨p, inside, below⟩ := List.mem_flatMap.mp member
      exact ⟨p, inside, .last below fit⟩
  | down member fit rest =>
      obtain ⟨p, inside, below⟩ := List.mem_flatMap.mp member
      exact ⟨p, inside, .down below fit rest⟩

theorem Way.held (way : a.Way a.Fits start components x) :
    ∃ page, a.pages.get? x = some page := by
  induction way with
  | last _ fits => exact fits.held
  | down _ _ _ ih => exact ih

theorem mem_follow (pages : Set Address) (same : ∀ y, y ∈ start ↔ y ∈ pages) :
    x ∈ a.follow start components ↔ x ∈ a.candidates components pages := by
  have first (component : String) (y : Address) :
      y ∈ a.matching start component ↔ y ∈ a.foremost component pages := by
    rw [mem_matching, foremost, Set.mem_sep_iff, same]
    simp only [same]
  induction components generalizing start pages with
  | nil => exact iff_of_false List.not_mem_nil (Set.notMem_empty x)
  | cons component rest ih =>
      cases rest with
      | nil => exact first component x
      | cons next rest =>
          refine ih _ (fun y => ?_) fun component y => ?_
          · simp [first]
          · rw [mem_matching, foremost, Set.mem_sep_iff]
            simp [first]

/-- Every candidate is reached by a way on which each page fits its component. The induction is on
the components, from the first. -/
theorem way_of_mem_follow (member : x ∈ a.follow start components) :
    a.Way a.Fits start components x := by
  induction components generalizing start with
  | nil => cases member
  | cons component rest ih =>
      cases rest with
      | nil =>
          obtain ⟨inside, fits, _⟩ := mem_matching.mp member
          exact .last inside fits
      | cons next rest =>
          obtain ⟨p, selected, below⟩ := (ih member).of_below
          obtain ⟨inside, fits, _⟩ := mem_matching.mp selected
          exact .down inside fits below

/-- What is reached by a way on which each page has its component for a name is a candidate, also
among more pages to start from. The induction is on the way. -/
theorem Way.mem_follow (way : a.Way a.Named start components x) :
    ∀ {more : List Address}, start ⊆ more → x ∈ a.follow more components := by
  have selected {component : String} {p : Address} {start more : List Address}
      (member : p ∈ start) (named : a.Named component p) (within : start ⊆ more) :
      p ∈ a.matching more component := by
    obtain ⟨fits, first⟩ := named.fits
    exact mem_matching.mpr ⟨within member, fits, fun y _ => first ▸ Nat.zero_le _⟩
  induction way with
  | last member named =>
      intro more within
      exact selected member named within
  | @down start component p rest x member named below ih =>
      intro more within
      cases rest with
      | nil => cases below
      | cons next rest =>
          have inside := selected member named within
          exact ih fun y listed => List.mem_flatMap.mpr ⟨p, inside, listed⟩

theorem follow_rising (start : List Address) (components : List String) :
    (a.follow start components).Pairwise fun x y => compare x y = .lt := by
  have step (readings : List Component.Reading) (start : List Address) :
      (a.fitting start readings).Pairwise fun x y => compare x y = .lt := by
    induction readings with
    | nil => exact .nil
    | cons reading readings ih =>
        rw [fitting]
        split
        · exact ih
        · exact Text.rising_mergeSort compare _
  induction components generalizing start with
  | nil => exact .nil
  | cons component rest ih =>
      cases rest with
      | nil => exact step _ start
      | cons next rest => exact ih _

theorem lookup_ambiguous {scope : Option Address} {addresses : List Address}
    (several : a.lookup scope components = .ambiguous addresses) : 2 ≤ addresses.length := by
  rw [lookup] at several
  generalize a.follow (a.startingPages scope) components = found at several
  rcases found with _ | ⟨address, _ | ⟨next, rest⟩⟩
  · cases several
  · simp only at several
    split at several <;> cases several
  · cases several
    exact Nat.le_add_left 2 rest.length

theorem WellFormed.answers_lookup (wf : a.WellFormed) (scope : Option Address)
    (components : List String) :
    (a.lookup scope components).answers = a.follow (a.startingPages scope) components := by
  rw [lookup]
  split
  · rename_i none
    exact none.symm
  · rename_i address only
    have member : address ∈ a.follow (a.startingPages scope) components := by simp [only]
    -- What is left at the end fits the last component, so it is a page.
    obtain ⟨page, found⟩ := (way_of_mem_follow member).held
    rw [found, only]
    exact congrArg (fun own => [own]) (wf.own found)
  · rfl

/-- Looking components up below a page, or from the roots, answers with nothing but pages that are
reached by ways on which each page fits its component, and with all that are reached by ways on
which each has its component for a name. A page is found only if it is the only candidate; several
candidates are listed, each of them once, in order. -/
theorem lookup_candidates (settings : Settings) (inputs : Inputs) (scope : Option Address)
    (components : List String) :
    let a := (build settings inputs).1
    let start := a.startingPages scope
    let candidates := a.candidates components {x | x ∈ start}
    let answer := a.lookup scope components
    (∀ x ∈ answer.answers, a.Way a.Fits start components x) ∧
      (∀ x, a.Way a.Named start components x → x ∈ answer.answers) ∧
      (∀ page, answer = .found page →
        a.pages.get? page.address = some page ∧ candidates = {page.address}) ∧
      (∀ addresses, answer = .ambiguous addresses → 2 ≤ addresses.length ∧
        (addresses.Pairwise fun x y => compare x y = .lt) ∧ candidates = {x | x ∈ addresses}) ∧
      (answer = .notFound → candidates = ∅) := by
  intro a start candidates answer
  have wf : a.WellFormed := build_wellFormed settings inputs
  have whole : answer.answers = a.follow start components := wf.answers_lookup scope components
  have same : candidates = {x | x ∈ answer.answers} := by
    ext x
    rw [whole]
    exact (mem_follow _ fun _ => Iff.rfl).symm
  refine ⟨fun x member => ?_, fun x way => ?_, fun page found => ?_, fun addresses several => ?_,
    fun none => ?_⟩
  · exact way_of_mem_follow (whole ▸ member)
  · exact whole ▸ way.mem_follow (List.Subset.refl _)
  · obtain ⟨address, _, present⟩ := lookup_found.mp found
    refine ⟨wf.own present ▸ present, ?_⟩
    rw [same, found]
    ext x
    simp [Lookup.answers]
  · have listed : addresses = a.follow start components := by rw [← whole, several, Lookup.answers]
    refine ⟨lookup_ambiguous several, listed ▸ follow_rising _ _, ?_⟩
    rw [same, several, Lookup.answers]
  · rw [same, none]
    ext x
    simp [Lookup.answers]

end Atlas

end Concordance
