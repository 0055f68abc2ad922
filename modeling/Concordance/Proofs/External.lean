import Mathlib
import Concordance.External
import Concordance.Proofs.Assoc
import Concordance.Proofs.Link.Address

/-! # What other bundles answer

A bundle that summaries describe answers with its own pages, under the paths that it
was asked for.
-/

namespace Concordance

namespace External

variable {e : External} {link : WrittenLink} {address : Address}

/-- A bundle that a list of summaries describes. -/
def Described (e : External) : Prop :=
  ∃ bundle modules entities assets, e = ofEntities bundle modules entities assets

theorem Described.entity (described : e.Described) {path : List String} {entity : Entity}
    (found : e.entities.get? path = some entity) :
    entity.reference.bundle = e.bundle ∧ entity.reference.path = path := by
  obtain ⟨bundle, modules, entities, assets, rfl⟩ := described
  have member := Assoc.mem_ofList (Assoc.mem_of_get? found)
  obtain ⟨entity, listed, same⟩ := List.mem_map.mp member
  cases same
  exact ⟨eq_of_beq (List.mem_filter.mp listed).2, rfl⟩

theorem answer_ok (answered : e.answer link = .ok address) :
    ∃ entity, e.entities.get? link.components = some entity ∧
      (address = entity.reference ∨ ∃ text, address = entity.reference.withFragment text) := by
  simp only [answer] at answered
  split at answered
  · rename_i entity found
    refine ⟨entity, found, ?_⟩
    cases answered
    cases link.fragment with
    | none => exact .inl rfl
    | some text => exact .inr ⟨text, rfl⟩
  · cases answered

theorem any_of_asked {place : Nat} {inquiries : List Inquiry} (asked : ⟨place, link⟩ ∈ inquiries)
    (path : link.components = address.path) :
    inquiries.any (fun q => q.place == place && q.link.components == address.path) = true :=
  List.any_eq_true.mpr ⟨⟨place, link⟩, asked, by simp [path]⟩

/-- The bundle answers with the page of its own that the link names. -/
theorem Described.answer (described : e.Described) (answered : e.answer link = .ok address) :
    address.bundle = e.bundle ∧ address.path = link.components := by
  obtain ⟨entity, found, same | ⟨text, same⟩⟩ := answer_ok answered
  · rw [same]
    exact described.entity found
  · simpa only [same, Address.withFragment_bundle, Address.withFragment_path] using
      described.entity found

end External

namespace Externals

variable {es : Externals} {e : External} {place : Nat} {link : WrittenLink} {address : Address}
  {inquiries : List Inquiry}

/-- The summary of a page of another bundle, whether its bundle was asked for it or not. -/
def summary? (es : Externals) (address : Address) : Option Entity := do
  let (e, _) ← es.ofBundle? address.bundle
  let entity ← e.entities.get? address.path
  if entity.reference == address.page then some entity else none

theorem ofBundle?_eq_some (names : (es.map External.bundle).Nodup)
    (registered : es[place]? = some e) : es.ofBundle? e.bundle = some (e, place) := by
  have member : (e, place) ∈ es.zipIdx := List.mem_zipIdx_iff_getElem?.mpr registered
  cases found : es.ofBundle? e.bundle with
  | none =>
      have none := List.find?_eq_none.mp found (e, place) member
      simp at none
  | some first =>
      obtain ⟨e', place'⟩ := first
      have same : e'.bundle = e.bundle := by simpa using List.find?_some found
      have there : es[place']? = some e' :=
        List.mem_zipIdx_iff_getElem?.mp (List.mem_of_find?_eq_some found)
      have places : place' = place := by
        refine (List.getElem?_inj (by simpa using (List.getElem?_eq_some_iff.mp there).1) names).mp ?_
        rw [List.getElem?_map, List.getElem?_map, there, registered]
        exact congrArg some same
      subst places
      rw [there] at registered
      cases registered
      rfl

@[simp]
theorem informants_entity? :
    (es.informants inquiries).entity? address = es.entity? inquiries address := by
  simp only [informants, Informants.entity?, entity?, ofBundle?, List.find?_map, Option.bind_eq_bind,
    Option.bind_map]
  rfl

/-- Once the bundle of a page was asked for it, its summary is at hand. -/
theorem entity?_of_asked (names : (es.map External.bundle).Nodup) (registered : es[place]? = some e)
    (asked : ⟨place, link⟩ ∈ inquiries) (bundle : address.bundle = e.bundle)
    (path : address.path = link.components) :
    es.entity? inquiries address = es.summary? address := by
  simp only [entity?, External.entity?, summary?, bundle, ofBundle?_eq_some names registered,
    Option.bind_eq_bind, Option.bind_some, External.any_of_asked asked path.symm, Bool.and_true]

end Externals

end Concordance
