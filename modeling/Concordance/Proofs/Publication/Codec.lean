import Mathlib
import Concordance.Proofs.Json.Text
import Concordance.Proofs.Rendered.Codec
import Concordance.Publication.Files
import Concordance.Rendered.Variant

/-! # What is published is read as it was written

Pages come back from the values they are written to. The JSON form of an entity is in
canonical form already and holds no numbers, so that a list of entities comes back from
its value and from the text of its file.
-/

namespace Concordance

open Decode

namespace Address

theorem read (a : Address) : ofJson? a.json.canonical = some a := by
  have known : (Assoc.keys [("bundle_id", Json.string a.bundle), ("fragment", .optional a.fragment),
      ("path", .array (a.path.map .string))]).Sublist ["bundle_id", "fragment", "path"] := .refl _
  obtain ⟨r, read, holds⟩ := record_canonical known (by decide)
  have bundle : r.required "bundle_id" text = some a.bundle :=
    holds.required_eq (by simp) (text_canonical _)
  have fragment : r.optional "fragment" text = some a.fragment :=
    holds.optional_eq (by simp) (nullable_text _)
  have path : r.required "path" (list text) = some a.path :=
    holds.required_eq (by simp; rfl) (Rendered.texts_read _)
  rw [ofJson?, json, read, Option.bind_eq_bind, Option.bind_some, bundle, fragment, path]
  rfl

theorem canonical_json (a : Address) : a.json.canonical = a.json := by
  have path : (Json.array (a.path.map .string)).canonical = .array (a.path.map .string) :=
    Json.canonical_array_eq (by simp [Json.canonical_string])
  exact Json.canonical_object_eq (by simp [Assoc.Rising]; decide)
    (by simp [path, Json.canonical_string, Json.canonical_optional])

theorem textual_json (a : Address) : a.json.Textual := by
  simp [json]

end Address

namespace Availability

theorem canonical_json (a : Availability) : a.json.canonical = a.json := by
  rw [json]
  refine Json.canonical_object_eq ?_ ?_
  · cases a.deprecated <;> cases a.introduced <;> (simp [Assoc.Rising]; try decide)
  · cases a.deprecated <;> cases a.introduced <;> simp [Json.canonical_string]

theorem textual_json (a : Availability) : a.json.Textual := by
  rw [json]
  cases a.deprecated <;> cases a.introduced <;> simp

end Availability

namespace Entity

theorem read (e : Entity) : ofJson? e.json.canonical = some e := by
  have known : (Assoc.keys [("abstract", .string e.summary),
      ("availability", .array (e.availability.map Availability.json)),
      ("kind", .string e.kind), ("reference", e.reference.json), ("role", .string e.role),
      ("title", .string e.title), ("url", .string e.url)]).Sublist
        ["abstract", "availability", "kind", "reference", "role", "title", "url"] := .refl _
  obtain ⟨r, read, holds⟩ := record_canonical known (by decide)
  have summary : r.defaulted "abstract" "" text = some e.summary :=
    holds.defaulted_eq (by simp) (text_canonical _)
  have availability : r.defaulted "availability" [] (list Availability.ofJson?) =
      some e.availability :=
    holds.defaulted_eq (by simp) (list_canonical fun a _ => Availability.read a)
  have kind : r.required "kind" text = some e.kind :=
    holds.required_eq (by simp) (text_canonical _)
  have reference : r.required "reference" Address.ofJson? = some e.reference :=
    holds.required_eq (by simp) (Address.read _)
  have role : r.defaulted "role" "" text = some e.role :=
    holds.defaulted_eq (by simp) (text_canonical _)
  have title : r.required "title" text = some e.title :=
    holds.required_eq (by simp) (text_canonical _)
  have url : r.required "url" text = some e.url :=
    holds.required_eq (by simp) (text_canonical _)
  rw [ofJson?, json, read, Option.bind_eq_bind, Option.bind_some, summary, availability, kind,
    reference, role, title, url]
  rfl

theorem canonical_json (e : Entity) : e.json.canonical = e.json := by
  have availability : (Json.array (e.availability.map Availability.json)).canonical =
      .array (e.availability.map Availability.json) :=
    Json.canonical_array_eq (by simp [Availability.canonical_json])
  exact Json.canonical_object_eq (by simp [Assoc.Rising]; decide)
    (by simp [availability, Address.canonical_json, Json.canonical_string])

theorem textual_json (e : Entity) : e.json.Textual := by
  simp [json, Availability.textual_json, Address.textual_json]

theorem list_read (es : List Entity) : listOfJson? (.array (es.map json)) = some es := by
  have same : (Json.array (es.map json)).canonical = .array (es.map json) :=
    Json.canonical_array_eq (by simp [canonical_json])
  rw [← same]
  exact list_canonical fun e _ => read e

end Entity

namespace Publication

theorem entities_read (es : List Entity) :
    (Json.parse? (jsonText (.array (es.map Entity.json)))).bind Entity.listOfJson? = some es := by
  have textual : (Json.array (es.map Entity.json)).Textual := by simp [Entity.textual_json]
  have text := Json.parse?_pretty textual ['\n'] (by simp [Json.isSpace])
  have line : String.ofList ['\n'] = "\n" := rfl
  rw [line] at text
  rw [jsonText, text, Option.bind_some, Entity.list_read]

/-- A page is read from the value it is written to, whatever values its overrides hold, and so is a
list of entities, which is also read from the text of its file. -/
theorem read_written {page : Rendered.Page} (canonical : page.Canonical) (es : List Entity) :
    Rendered.Page.ofJson? page.value = some page ∧
      Entity.listOfJson? (Json.array (es.map Entity.json)).canonical = some es ∧
      (Json.parse? (jsonText (.array (es.map Entity.json)))).bind Entity.listOfJson? = some es :=
  ⟨Rendered.Page.read_canonical canonical, list_canonical fun e _ => Entity.read e,
    entities_read es⟩

theorem read_written_part :
    let page : Rendered.Page := {
      summary := [.text "A part of ", .reference "doc://kit/documentation/Kit" true none]
      hierarchy := [["doc://kit/documentation/Kit"]]
      language := "swift", identifier := "doc://kit/documentation/Kit/Part", kind := "symbol"
      metadata := { role := "class", roleHeading := "Class", title := "Part" }
      sections := [.content [.heading "uses" 2 "Uses", .orderedList [[.code "Part()"], []]]]
      references := [("doc://kit/documentation/Kit",
        .topic [] "doc://kit/documentation/Kit" "symbol" "collection" "Kit" "/documentation/kit")]
      overrides := [{
        patch := [.replace "/metadata" (.object [("role", .null), ("sizes", .array [.whole 3])]),
          .remove "/sections/0"]
        languages := ["occ"] }] }
    let entities : List Entity := [{
      summary := "A part.\n", availability := [{ introduced := some "10.15", platform := "macOS" }]
      kind := "symbol", reference := ⟨"kit", ["Kit", "Part"], none⟩, title := "Part"
      url := "/documentation/kit/part" }]
    Rendered.Page.ofJson? page.value = some page ∧
      Entity.listOfJson? (Json.array (entities.map Entity.json)).canonical = some entities ∧
      (Json.parse? (jsonText (.array (entities.map Entity.json)))).bind Entity.listOfJson? =
        some entities := by
  intro page entities
  have references : Assoc.Rising page.references := List.pairwise_singleton _ _
  have overrides : ∀ o ∈ page.overrides, o.Canonical := by
    simp [page, Rendered.Override.Canonical, Change.Canonical]
    rfl
  exact read_written ⟨references, overrides⟩ entities

end Publication

end Concordance
