import Mathlib
import Concordance.Link.Address

/-! # Addresses

Addresses that compare as equal are equal, and the order is transitive. A fragment does
not matter for the page.
-/

namespace Concordance.Address

open Std

instance : TransOrd Address :=
  inferInstanceAs (TransCmp
    (compareLex (compareOn bundle) (compareLex (compareOn path) (compareOn fragment))))

instance : LawfulEqOrd Address where
  eq_of_compare {a b} same := by
    obtain ⟨bundles, rest⟩ := compareLex_eq_eq.mp same
    obtain ⟨paths, fragments⟩ := compareLex_eq_eq.mp rest
    cases a
    cases b
    congr
    · exact LawfulEqOrd.eq_of_compare bundles
    · exact LawfulEqOrd.eq_of_compare paths
    · exact LawfulEqOrd.eq_of_compare fragments

variable (a : Address) (text : String)

theorem page_page : a.page.page = a.page := rfl

@[simp] theorem withFragment_bundle : (a.withFragment text).bundle = a.bundle := by
  rw [withFragment]

@[simp] theorem withFragment_path : (a.withFragment text).path = a.path := by
  rw [withFragment]

@[simp] theorem withFragment_page : (a.withFragment text).page = a.page := by
  rw [page, page, withFragment_bundle, withFragment_path]

end Concordance.Address
