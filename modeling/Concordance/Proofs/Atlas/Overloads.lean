import Mathlib
import Concordance.Proofs.Atlas.Distinguished
import Concordance.Proofs.Link.Component
import Concordance.Proofs.Text.Cut

/-! # Overloads that their paths do not distinguish

A suffix that belongs to one overload alone need not select it alone. Whatever
stands before a dot counts as a language in front of a kind, so a kind with a dot in
it selects the overloads of the kind after the dot as well. And a suffix behind a
name that leaves a bracket open, as the names of some operators do, selects nothing.
-/

namespace Concordance

/-- A kind with something and a dot before it fits as the kind does. -/
theorem Distinction.fits_dotted {d : Distinction} {prior : String} (single : '.' ∉ prior.toList) :
    d.fits (prior ++ "." ++ d.kind) = true := by
  have whole : (prior ++ "." ++ d.kind).toList = prior.toList ++ '.' :: d.kind.toList := by
    simp [String.toList_append]
  have kind : d.fitsKind (prior ++ "." ++ d.kind) = true := by
    rw [fitsKind, whole, Text.cut?_append single]
    simp
  simp [fits, kind]

namespace Atlas

variable {a : Atlas} {q m n : Address} {page other : Page} {d : Distinction} {suffix : String}

theorem reading_of_fits (found : a.pages.get? n = some page)
    (component : n.component = page.name ++ "-" ++ suffix)
    (clean : suffix.toList.head? ≠ some '-') {reading : Component.Reading}
    (member : reading ∈ Component.readings n.component) (fit : a.fitsReading reading n = true) :
    Component.endDepth page.name.toList = 0 ∧ reading = (page.name, some suffix) := by
  simp only [fitsReading, found, Bool.and_eq_true, beq_iff_eq] at fit
  rw [component] at member
  obtain ⟨outside, told⟩ := Component.suffix_of_mem_readings clean member fit.1.symm
  exact ⟨outside, Prod.ext fit.1.symm told⟩

/-- A page is not distinguished if a page beside it fits every reading of its component that it
fits itself. -/
theorem not_distinguished_of_shared (wf : a.WellFormed) (inside : n ∈ a.children q)
    (beside : m ∈ a.children q) (different : m ≠ n)
    (shared : ∀ reading ∈ Component.readings n.component,
      a.fitsReading reading n = true → a.fitsReading reading m = true) :
    ¬ a.Distinguished n := by
  rintro ⟨legible, alone⟩
  refine different (alone m ?_)
  obtain ⟨above, _, best⟩ := (wf.legible_of_child inside).mp legible
  have least := best _ above.rival_self m beside
  exact .child above.rival_self beside inside
    (Nat.le_antisymm (List.findIdx_le_findIdx shared) least)

/-- An overload whose kind is the kind of another one after a dot is not distinguished by it. -/
theorem not_distinguished_of_dotted_kind (wf : a.WellFormed) (inside : n ∈ a.children q)
    (beside : m ∈ a.children q) (different : m ≠ n) (found : a.pages.get? n = some page)
    (found' : a.pages.get? m = some other) (name : other.name = page.name)
    (told : other.distinction = some d) {prior : String} (single : '.' ∉ prior.toList)
    (clean : (prior ++ "." ++ d.kind).toList.head? ≠ some '-')
    (component : n.component = page.name ++ "-" ++ (prior ++ "." ++ d.kind)) :
    ¬ a.Distinguished n := by
  refine not_distinguished_of_shared wf inside beside different fun reading member fit => ?_
  obtain ⟨_, rfl⟩ := reading_of_fits found component clean member fit
  simp [fitsReading, found', name, told, d.fits_dotted single]

/-- A page with a suffix behind a name that leaves a bracket open is not distinguished. -/
theorem not_distinguished_of_open (found : a.pages.get? n = some page)
    (component : n.component = page.name ++ "-" ++ suffix)
    (clean : suffix.toList.head? ≠ some '-') (opened : Component.endDepth page.name.toList ≠ 0) :
    ¬ a.Distinguished n := by
  rintro ⟨legible, _⟩
  have fits : a.Fits n.component n := by
    cases legible with
    | root _ fits _ => exact fits
    | child _ _ fits _ => exact fits
  obtain ⟨reading, member, fit⟩ := fits
  exact opened (reading_of_fits found component clean member fit).1

example : Component.endDepth "<(_:_:)".toList = 1 := by decide

end Atlas

end Concordance
