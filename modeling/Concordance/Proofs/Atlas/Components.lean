import Mathlib
import Concordance.Atlas.Distinction
import Concordance.Proofs.Text.Cut

/-! # Components of overloads

Symbols of one name have components that differ. Each is the name with a suffix that fits
the symbol: the kind of a symbol that is alone in its kind, and the hash of any other.
Other symbols fit a suffix only where it has a mark in it, as a kind may.
-/

namespace Concordance.Distinction

variable {members : List Distinction} {d e : Distinction} {suffix : String}

def component (name : String) (members : List Distinction) (d : Distinction) : String :=
  if members.length = 1 then name else name ++ "-" ++ suffixAmong members d

theorem components_eq_map (name : String) (members : List Distinction) :
    components name members = members.map (component name members) := by
  rcases members with _ | ⟨d, _ | ⟨e, rest⟩⟩
  · rfl
  · rfl
  · refine List.map_congr_left fun d _ => ?_
    simp [component]

theorem component_single {name : String} {members : List Distinction} (one : members.length = 1)
    (d : Distinction) : component name members d = name := if_pos one

/-- Symbols of one name differ in their components if their hashes differ and name no kinds. -/
theorem component_injective {α : Type} (distinction : α → Distinction) {name : String}
    {members : List α} {s t : α} (first : s ∈ members) (second : t ∈ members)
    (hashes : (distinction s).hash = (distinction t).hash → s = t)
    (word : (distinction s).hash ≠ (distinction t).kind)
    (word' : (distinction t).hash ≠ (distinction s).kind)
    (same : component name (members.map distinction) (distinction s) =
      component name (members.map distinction) (distinction t)) : s = t := by
  by_cases one : members.length = 1
  · obtain ⟨u, rfl⟩ := List.length_eq_one_iff.mp one
    rw [List.mem_singleton.mp first, List.mem_singleton.mp second]
  · have several : ¬ (members.map distinction).length = 1 := by rwa [List.length_map]
    have suffixes : suffixAmong (members.map distinction) (distinction s) =
        suffixAmong (members.map distinction) (distinction t) := by
      rw [component, component, if_neg several, if_neg several] at same
      simpa using same
    simp only [suffixAmong, beq_iff_eq] at suffixes
    split at suffixes
    · rename_i alone
      split at suffixes
      · -- Both are the only one of their kind.
        rw [List.countP_map, List.countP_eq_length_filter, List.length_eq_one_iff] at alone
        obtain ⟨u, only⟩ := alone
        have chosen {v : α} (member : v ∈ members)
            (kind : (distinction v).kind = (distinction s).kind) : v = u := by
          rw [← List.mem_singleton, ← only, List.mem_filter]
          exact ⟨member, by simpa using kind⟩
        rw [chosen first rfl, chosen second suffixes.symm]
      · exact absurd suffixes.symm word'
    · split at suffixes
      · exact absurd suffixes word
      · exact hashes suffixes

/-- A symbol is alone in its kind where no other one has the kind. -/
def Alone (members : List Distinction) (d : Distinction) : Prop :=
  ∀ other ∈ members, other ≠ d → other.kind ≠ d.kind

/-- What a suffix says about one symbol of several. -/
structure Distinguishes (members : List Distinction) (d : Distinction) (suffix : String) : Prop where
  /-- It is one of the two texts that tell symbols apart. -/
  own : suffix = d.kind ∨ suffix = d.hash
  /-- It selects the symbol. -/
  fits : d.fits suffix = true
  /-- It is the kind of a symbol that is alone in its kind, and of no other. -/
  kind : suffix = d.kind ↔ Alone members d
  /-- It selects another symbol only by what stands behind a dot, or as a kind with a hyphen. -/
  only : ∀ other ∈ members, other.fits suffix = true →
    other = d ∨ '.' ∈ suffix.toList ∨ suffix = d.kind ∧ '-' ∈ suffix.toList

theorem fits_hash (d : Distinction) : d.fits d.hash = true := by
  simp [fits]

theorem fits_kind (d : Distinction) : d.fits d.kind = true := by
  simp [fits, fitsKind]

theorem fits_plain (undotted : '.' ∉ suffix.toList) (whole : '-' ∉ suffix.toList) :
    d.fits suffix = true ↔ suffix = d.hash ∨ suffix = d.kind := by
  have single : Text.cutLast? '-' suffix.toList = none := by
    rw [Text.cutLast?, Text.cut?_eq_none (by simpa using whole)]
    rfl
  simp [fits, fitsKind, Text.cut?_eq_none undotted, single]

theorem of_fits (fit : d.fits suffix = true) :
    suffix = d.hash ∨ suffix = d.kind ∨ '.' ∈ suffix.toList ∨ '-' ∈ suffix.toList := by
  by_cases dotted : '.' ∈ suffix.toList
  · exact .inr (.inr (.inl dotted))
  · by_cases hyphened : '-' ∈ suffix.toList
    · exact .inr (.inr (.inr hyphened))
    · exact ((fits_plain dotted hyphened).mp fit).imp_right .inl

theorem countP_kind_eq_one_iff (once : members.Nodup) (member : d ∈ members) :
    members.countP (fun other => other.kind == d.kind) = 1 ↔ Alone members d := by
  -- The symbol counts itself, so it is alone if nothing else counts.
  have parts : members.countP (fun other => other.kind == d.kind) =
      (members.erase d).countP (fun other => other.kind == d.kind) + 1 := by
    rw [(List.perm_cons_erase member).countP_eq, List.countP_cons_of_pos (by simp)]
  rw [parts, Nat.add_eq_right, List.countP_eq_zero]
  simp only [once.mem_erase_iff, beq_iff_eq, and_imp]
  exact ⟨fun others other inside different => others other different inside,
    fun others other different inside => others other inside different⟩

theorem suffixAmong_cases (once : members.Nodup) (member : d ∈ members) :
    Alone members d ∧ suffixAmong members d = d.kind ∨
      ¬ Alone members d ∧ suffixAmong members d = d.hash := by
  have counted := countP_kind_eq_one_iff once member
  rw [suffixAmong]
  split
  · rename_i one
    exact .inl ⟨counted.mp (eq_of_beq one), rfl⟩
  · rename_i more
    exact .inr ⟨fun alone => more (beq_iff_eq.mpr (counted.mpr alone)), rfl⟩

section Group

variable (distinct : (members.map hash).Nodup)
  (apart : ∀ d ∈ members, ∀ e ∈ members, d.hash ≠ e.kind)

include distinct apart

theorem components_nodup (name : String) : (components name members).Nodup := by
  rw [components_eq_map]
  refine List.Nodup.map_on (fun d here e there same => ?_) (List.Nodup.of_map _ distinct)
  exact component_injective id here there (List.inj_on_of_nodup_map distinct here there)
    (apart d here e there) (apart e there d here) (by rwa [List.map_id])

theorem suffixAmong_distinguishes (whole : ∀ d ∈ members, '-' ∉ d.hash.toList)
    (member : d ∈ members) : Distinguishes members d (suffixAmong members d) := by
  rcases suffixAmong_cases (List.Nodup.of_map _ distinct) member with ⟨alone, own⟩ | ⟨shared, own⟩
  · rw [own]
    refine ⟨.inl rfl, d.fits_kind, ⟨fun _ => alone, fun _ => rfl⟩, fun other inside fit => ?_⟩
    rcases of_fits fit with hash | kind | dotted | hyphened
    · exact absurd hash.symm (apart other inside d member)
    · by_contra elsewhere
      exact alone other inside (fun same => elsewhere (.inl same)) kind.symm
    · exact .inr (.inl dotted)
    · exact .inr (.inr ⟨rfl, hyphened⟩)
  · rw [own]
    refine ⟨.inr rfl, d.fits_hash, ⟨fun same => absurd same (apart d member d member),
      fun alone => absurd alone shared⟩, fun other inside fit => ?_⟩
    rcases of_fits fit with hash | kind | dotted | hyphened
    · exact .inl (List.inj_on_of_nodup_map distinct inside member hash.symm)
    · exact absurd kind (apart d member other inside)
    · exact .inr (.inl dotted)
    · exact absurd hyphened (whole d member)

end Group

/-- Symbols of one name whose hashes differ from each other and from all kinds have different
components, one for each in order: the name and a suffix that distinguishes the symbol. -/
theorem components_distinguish (name : String) (several : 2 ≤ members.length)
    (distinct : (members.map hash).Nodup) (whole : ∀ d ∈ members, '-' ∉ d.hash.toList)
    (apart : ∀ d ∈ members, ∀ e ∈ members, d.hash ≠ e.kind) :
    (components name members).Nodup ∧ ∃ suffixes : List String,
      components name members = suffixes.map (fun suffix => name ++ "-" ++ suffix) ∧
      List.Forall₂ (Distinguishes members) members suffixes := by
  refine ⟨components_nodup distinct apart name, members.map (suffixAmong members), ?_, ?_⟩
  · rw [components_eq_map, List.map_map]
    refine List.map_congr_left fun d _ => ?_
    rw [component, if_neg (by omega)]
    rfl
  · rw [List.forall₂_map_right_iff, List.forall₂_same]
    exact fun d member => suffixAmong_distinguishes distinct apart whole member

def propertyAndMethods : List Distinction :=
  [⟨"1a2b3", "property"⟩, ⟨"4c5d6", "method"⟩, ⟨"7e8f9", "method"⟩]

theorem components_distinguish_value :
    (2 ≤ propertyAndMethods.length ∧ (propertyAndMethods.map hash).Nodup ∧
      (∀ d ∈ propertyAndMethods, '-' ∉ d.hash.toList) ∧
      ∀ d ∈ propertyAndMethods, ∀ e ∈ propertyAndMethods, d.hash ≠ e.kind) ∧
    (components "value" propertyAndMethods).Nodup ∧ ∃ suffixes : List String,
      components "value" propertyAndMethods =
        suffixes.map (fun suffix => "value" ++ "-" ++ suffix) ∧
      List.Forall₂ (Distinguishes propertyAndMethods) propertyAndMethods suffixes := by
  have several : 2 ≤ propertyAndMethods.length := by decide
  have distinct : (propertyAndMethods.map hash).Nodup := by decide
  have whole : ∀ d ∈ propertyAndMethods, '-' ∉ d.hash.toList := by decide
  have apart : ∀ d ∈ propertyAndMethods, ∀ e ∈ propertyAndMethods, d.hash ≠ e.kind := by decide
  exact ⟨⟨several, distinct, whole, apart⟩,
    components_distinguish "value" several distinct whole apart⟩

example : components "value" [⟨"1a2b3", "property"⟩, ⟨"4c5d6", "method"⟩, ⟨"7e8f9", "method"⟩] =
    ["value-property", "value-4c5d6", "value-7e8f9"] := by decide

-- What stands before a dot counts as a language, so one symbol's kind can select another symbol.
example : fits ⟨"4c5d6", "method"⟩ "type.method" = true := by decide

end Concordance.Distinction
