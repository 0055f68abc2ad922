import Mathlib
import Concordance.Atlas.Basic
import Concordance.Proofs.Assoc
import Concordance.Proofs.Link.Address

/-! # Inserting and editing pages

What inserting a page does to the pages and to every index, and that editing what a
page holds leaves the indexes as they are.
-/

namespace Concordance.Atlas

variable {a b : Atlas} {p : Page}

section Append

variable {κ : Type} [BEq κ] [LawfulBEq κ] [Ord κ] [Std.LawfulEqOrd κ]

theorem get?_append (m : Assoc κ (List Address)) (key : κ) (address : Address) (k : κ) :
    ((append m key address).get? k).getD [] =
      (m.get? k).getD [] ++ if k == key then [address] else [] := by
  rw [append, Assoc.get?_put]
  by_cases same : k = key
  · subst same
    simp
  · simp [same]

end Append

section Insert

theorem eq_of_insert? (inserted : a.insert? p = some b) :
    a.pages.has p.address = false ∧ b = { a with
      pages := a.pages.put p.address p
      byHumanPath := append a.byHumanPath p.humanText p.address
      byPrecise := match p.content.symbol? with
        | some content => a.byPrecise.put content.precise p.address
        | none => a.byPrecise
      below := match p.parent with
        | some parent => append a.below parent p.address
        | none => a.below
      roots := match p.parent with
        | some _ => a.roots
        | none => a.roots ++ [p.address] } := by
  rw [insert?] at inserted
  split at inserted
  · cases inserted
  · rename_i unused
    exact ⟨by simpa using unused, (Option.some.inj inserted).symm⟩

theorem insert?_fresh (inserted : a.insert? p = some b) : a.pages.has p.address = false :=
  (eq_of_insert? inserted).1

theorem get?_fresh (inserted : a.insert? p = some b) : a.pages.get? p.address = none := by
  simpa [Assoc.has] using insert?_fresh inserted

theorem insert?_none (refused : a.insert? p = none) : a.pages.has p.address = true := by
  simp only [insert?] at refused
  split at refused
  · assumption
  · cases refused

theorem bundle_insert? (inserted : a.insert? p = some b) : b.bundle = a.bundle := by
  rw [(eq_of_insert? inserted).2]

theorem pages_insert? (inserted : a.insert? p = some b) :
    b.pages = a.pages.put p.address p := by
  rw [(eq_of_insert? inserted).2]

theorem byHumanPath_insert? (inserted : a.insert? p = some b) :
    b.byHumanPath = append a.byHumanPath p.humanText p.address := by
  rw [(eq_of_insert? inserted).2]

theorem below_insert? (inserted : a.insert? p = some b) :
    b.below = match p.parent with
      | some parent => append a.below parent p.address
      | none => a.below := by
  rw [(eq_of_insert? inserted).2]

theorem roots_insert? (inserted : a.insert? p = some b) :
    b.roots = match p.parent with
      | some _ => a.roots
      | none => a.roots ++ [p.address] := by
  rw [(eq_of_insert? inserted).2]

theorem byPrecise_insert? (inserted : a.insert? p = some b) :
    b.byPrecise = match p.content.symbol? with
      | some content => a.byPrecise.put content.precise p.address
      | none => a.byPrecise := by
  rw [(eq_of_insert? inserted).2]

theorem get?_insert? (inserted : a.insert? p = some b) (address : Address) :
    b.pages.get? address = if address = p.address then some p else a.pages.get? address := by
  rw [pages_insert? inserted, Assoc.get?_put]
  simp only [beq_iff_eq]

theorem get?_insert?_iff (inserted : a.insert? p = some b) {address : Address} {page : Page} :
    b.pages.get? address = some page ↔
      (address = p.address ∧ page = p) ∨ a.pages.get? address = some page := by
  rw [get?_insert? inserted]
  by_cases same : address = p.address
  · have unused := insert?_fresh inserted
    simp only [Assoc.has, Option.isSome_eq_false_iff, Option.isNone_iff_eq_none] at unused
    simp only [same, if_true, Option.some.injEq, true_and, unused, reduceCtorEq, or_false]
    exact eq_comm
  · simp [same]

theorem has_insert? (inserted : a.insert? p = some b) {address : Address}
    (held : a.pages.has address = true) : b.pages.has address = true := by
  rw [pages_insert? inserted, Assoc.has_put, held, Bool.or_true]

theorem has_insert?_self (inserted : a.insert? p = some b) : b.pages.has p.address = true := by
  rw [pages_insert? inserted, Assoc.has_put, beq_self_eq_true, Bool.true_or]

theorem mem_roots_insert? (inserted : a.insert? p = some b) {address : Address} :
    address ∈ b.roots ↔ address ∈ a.roots ∨ address = p.address ∧ p.parent = none := by
  rw [roots_insert? inserted]
  cases parent : p.parent <;> simp

theorem mem_children_insert? (inserted : a.insert? p = some b) {above address : Address} :
    address ∈ b.children above ↔
      address ∈ a.children above ∨ address = p.address ∧ p.parent = some above := by
  rw [children, children, below_insert? inserted]
  cases parent : p.parent with
  | none => simp
  | some holder =>
      simp only [get?_append, List.mem_append, Option.some.injEq, beq_iff_eq]
      by_cases same : above = holder
      · simp [same]
      · simp [same, Ne.symm same]

theorem mem_named_insert? (inserted : a.insert? p = some b) {text : String} {address : Address} :
    address ∈ (b.byHumanPath.get? text).getD [] ↔
      address ∈ (a.byHumanPath.get? text).getD [] ∨ address = p.address ∧ text = p.humanText := by
  rw [byHumanPath_insert? inserted, get?_append, List.mem_append]
  by_cases same : text = p.humanText <;> simp [same]

theorem precise_insert? (inserted : a.insert? p = some b) {precise : String} {address : Address}
    (known : b.byPrecise.get? precise = some address) :
    a.byPrecise.get? precise = some address ∨ address = p.address := by
  rw [byPrecise_insert? inserted] at known
  cases symbol : p.content.symbol? with
  | none => exact .inl (by simpa only [symbol] using known)
  | some content =>
      simp only [symbol, Assoc.get?_put] at known
      split at known
      · cases known
        exact .inr rfl
      · exact .inl known

end Insert

section Edit

variable (a) (address : Address) (f : Content → Content)

theorem editContent_pages :
    (a.editContent address f).pages = a.pages.map fun entry =>
      (entry.1, if entry.1 = address then { entry.2 with content := f entry.2.content }
        else entry.2) := by
  simp only [editContent, beq_iff_eq]
  apply List.map_congr_left
  rintro ⟨key, page⟩ _
  dsimp only
  split <;> rfl

theorem get?_editContent (k : Address) :
    (a.editContent address f).pages.get? k = (a.pages.get? k).map fun page =>
      if k = address then { page with content := f page.content } else page := by
  rw [editContent_pages]
  exact Assoc.get?_map_value a.pages
    (fun key page => if key = address then { page with content := f page.content } else page) k

theorem has_editContent (k : Address) :
    (a.editContent address f).pages.has k = a.pages.has k := by
  simp only [Assoc.has, get?_editContent, Option.isSome_map]

variable {a address f}

theorem page_editContent {k : Address} {page : Page}
    (found : (a.editContent address f).pages.get? k = some page) :
    ∃ before, a.pages.get? k = some before ∧
      (page = before ∨ page = { before with content := f before.content }) := by
  rw [get?_editContent] at found
  obtain ⟨before, present, same⟩ := Option.map_eq_some_iff.mp found
  split at same
  · exact ⟨before, present, .inr same.symm⟩
  · exact ⟨before, present, .inl same.symm⟩

theorem parent_editContent {k : Address} {parent : Option Address} :
    (∃ page, (a.editContent address f).pages.get? k = some page ∧ page.parent = parent) ↔
      ∃ page, a.pages.get? k = some page ∧ page.parent = parent := by
  rw [get?_editContent]
  cases a.pages.get? k with
  | none => simp
  | some page =>
      simp only [Option.map_some, Option.some.injEq, exists_eq_left']
      split <;> rfl

end Edit

end Concordance.Atlas
