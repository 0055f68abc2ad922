import Mathlib
import Concordance.Proofs.Rendered.Codec
import Concordance.Rendered.Variant

/-! # Overrides of published pages

The changes for another language are found on a page before it has overrides, and are
made on the page that has them. They touch nothing but members in front of the
overrides, so the page that they make has its own overrides still.
-/

namespace Concordance

namespace Rendered

section Exact

variable {α : Type}

theorem optionalMember_exact (name : String) (t : Option String) :
    ∀ member ∈ optionalMember name t, member.2.Exact := by
  cases t <;> simp [optionalMember]

theorem listMember_exact (name : String) (item : α → Json) {l : List α}
    (exact : ∀ x ∈ l, (item x).Exact) : ∀ member ∈ listMember name item l, member.2.Exact := by
  cases l with
  | nil => simp [listMember]
  | cons x xs => simpa [listMember] using exact

@[simp] theorem texts_exact (texts : List String) : (textsJson texts).Exact := by
  simp [textsJson]

@[simp] theorem Inline.exact (x : Inline) : x.json.Exact := by
  cases x with
  | code s | text s => simp [json]
  | reference identifier isActive title =>
      simp only [json, Json.exact_object, List.forall_mem_append]
      exact ⟨by simp, optionalMember_exact _ _⟩

@[simp] theorem Inline.list_exact (xs : List Inline) : (listJson xs).Exact := by
  simp [listJson]

@[simp] theorem Block.exact (b : Block) : b.json.Exact := by
  cases b with
  | code lines language =>
      simp only [json, Json.exact_object, List.forall_mem_append]
      exact ⟨by simp, optionalMember_exact _ _⟩
  | heading | orderedList | paragraph | unorderedList => simp [json]

@[simp] theorem Section.exact (s : Section) : s.json.Exact := by
  cases s <;> simp [json, Declaration.json]

@[simp] theorem Group.exact (g : Group) : g.json.Exact := by
  cases generated : g.generated <;> simp [json, generated]

@[simp] theorem Relations.exact (s : Relations) : s.json.Exact := by
  simp [json]

@[simp] theorem Chapter.exact (c : Chapter) : c.json.Exact := by
  simp [json]

@[simp] theorem availability_exact (a : Availability) : a.json.Exact := by
  rw [Availability.json]
  cases a.deprecated <;> cases a.introduced <;> simp

@[simp] theorem Metadata.exact (m : Metadata) : m.json.Exact := by
  simp only [json, Json.exact_object, List.forall_mem_append]
  exact ⟨⟨⟨⟨optionalMember_exact _ _, listMember_exact _ _ fun a _ => availability_exact a⟩, by simp⟩,
    optionalMember_exact _ _⟩, by simp⟩

@[simp] theorem Reference.exact (x : Reference) : x.json.Exact := by
  cases x <;> simp [json]

end Exact

section Indexable

variable {α : Type}

theorem listMember_indexable {name : String} {item : α → Json} {l : List α} :
    (∀ member ∈ listMember name item l, member.2.Indexable) ↔
      l.length ≤ Pointer.largestIndex ∧ ∀ x ∈ l, (item x).Indexable := by
  cases l with
  | nil => simp [listMember]
  | cons x xs => simp [listMember]

theorem Metadata.indexable_title {m : Metadata} (indexable : m.json.Indexable) (title : String) :
    { m with title }.json.Indexable := by
  simp only [json, Json.indexable_object, List.forall_mem_append] at indexable ⊢
  exact ⟨indexable.1, by simp⟩

theorem Page.presentSection_indexable (v : Presentation) {s : Section} (indexable : s.json.Indexable) :
    (presentSection v s).json.Indexable := by
  cases s with
  | content blocks => exact indexable
  | declarations ds =>
      simp [presentSection, Section.json, Declaration.json, textsJson, Pointer.largestIndex]

end Indexable

namespace Page

variable (p : Page) (v : Presentation)

/-- The members of the JSON form in front of the overrides. -/
def front : List (String × Json) :=
  [("abstract", Inline.listJson p.summary), ("hierarchy", hierarchyJson p.hierarchy),
      ("identifier", identityJson p.language p.identifier), ("kind", .string p.kind),
      ("metadata", p.metadata.json)]
    ++ listMember "primaryContentSections" Section.json p.sections
    ++ [("references", Reference.mapJson p.references)]
    ++ listMember "relationshipsSections" Relations.json p.relations
    ++ listMember "sections" Chapter.json p.chapters
    ++ listMember "seeAlsoSections" Group.json p.seeAlso
    ++ listMember "topicSections" Group.json p.topics

theorem json_eq :
    p.json = .object (p.front ++ listMember "variantOverrides" Override.json p.overrides) :=
  rfl

theorem value_eq : p.value = .object (Json.canonicalMembers p.front ++
    Json.canonicalMembers (listMember "variantOverrides" Override.json p.overrides)) := by
  obtain ⟨members, written, known⟩ := p.known
  rw [json_eq, Json.object.injEq] at written
  subst written
  rw [← Json.canonicalMembers_keys] at known
  have rising := Assoc.rising_of_sublist known (by decide)
  rw [value, json_eq, Json.canonical, rising.ofList_eq]
  simp only [Json.canonicalMembers_eq, List.map_append]

theorem front_exact : ∀ member ∈ p.front, member.2.Exact := by
  simp only [front, List.forall_mem_append]
  refine ⟨⟨⟨⟨⟨⟨?_, ?_⟩, ?_⟩, ?_⟩, ?_⟩, ?_⟩, ?_⟩
  · simp [hierarchyJson, identityJson]
  · exact listMember_exact _ _ fun s _ => Section.exact s
  · intro member inside
    cases List.mem_singleton.mp inside
    simp only [Reference.mapJson, Json.exact_object, List.forall_mem_map]
    exact fun entry _ => Reference.exact entry.2
  · exact listMember_exact _ _ fun s _ => Relations.exact s
  · exact listMember_exact _ _ fun c _ => Chapter.exact c
  · exact listMember_exact _ _ fun g _ => Group.exact g
  · exact listMember_exact _ _ fun g _ => Group.exact g

theorem front_keys : Assoc.keys (p.present v).front = Assoc.keys p.front := by
  simp only [front, Assoc.keys_append, present]
  cases p.sections <;> rfl

variable {p v}

theorem front_indexable (plain : p.overrides = []) :
    p.json.Indexable ↔ ∀ member ∈ p.front, member.2.Indexable := by
  rw [json_eq, plain, listMember, List.append_nil, Json.indexable_object]

theorem present_front_indexable (indexable : ∀ member ∈ p.front, member.2.Indexable) :
    ∀ member ∈ (p.present v).front, member.2.Indexable := by
  simp only [front, List.forall_mem_append] at indexable ⊢
  obtain ⟨⟨⟨⟨⟨⟨head, sections⟩, references⟩, relations⟩, chapters⟩, seeAlso⟩, topics⟩ :=
    indexable
  refine ⟨⟨⟨⟨⟨⟨?_, ?_⟩, references⟩, relations⟩, chapters⟩, seeAlso⟩, topics⟩
  · simp only [List.forall_mem_cons] at head ⊢
    obtain ⟨summary, hierarchy, _, kind, metadata, _⟩ := head
    refine ⟨summary, hierarchy, ?_, kind, Metadata.indexable_title metadata v.title, by simp⟩
    simp [identityJson]
  · obtain ⟨short, each⟩ := listMember_indexable.mp sections
    refine listMember_indexable.mpr ⟨by simpa [present] using short, ?_⟩
    simp only [present, List.forall_mem_map]
    exact fun s member => presentSection_indexable v (each s member)

theorem present_value_held (plain : p.overrides = []) (indexable : p.json.Indexable) :
    (p.present v).value.Held := by
  have none : (p.present v).overrides = [] := plain
  have front := (front_indexable plain).mp indexable
  exact Json.Indexable.held ((front_indexable none).mpr (present_front_indexable front))

/-- Whatever overrides a page has, the changes for a language make the page in that language out of
it, with the same overrides. -/
theorem patched_overrideFor {base : Page} (plain : base.overrides = [])
    (indexable : base.json.Indexable) {overrides : List Override}
    (held : Held { base with overrides }) :
    patched { base with overrides } (base.overrideFor v).patch =
      .ok (present { base with overrides } v) := by
  let back := Json.canonicalMembers (listMember "variantOverrides" Override.json overrides)
  have own : base.value = .object (Json.canonicalMembers base.front) := by
    rw [value_eq, plain, listMember, Json.canonicalMembers, List.append_nil]
  have other : (base.present v).value = .object (Json.canonicalMembers (base.present v).front) := by
    have none : (base.present v).overrides = [] := plain
    rw [value_eq, none, listMember, Json.canonicalMembers, List.append_nil]
  have whole : value { base with overrides } =
      .object (Json.canonicalMembers base.front ++ back) := value_eq _
  have result : value (present { base with overrides } v) =
      .object (Json.canonicalMembers (base.present v).front ++ back) := value_eq _
  have names : Assoc.keys (Json.canonicalMembers base.front) =
      Assoc.keys (Json.canonicalMembers (base.present v).front) := by
    rw [Json.canonicalMembers_keys, Json.canonicalMembers_keys, front_keys]
  have baseHeld : base.value.Held := indexable.held
  have otherHeld : (base.present v).value.Held := present_value_held plain indexable
  have exact : Json.ExactMembers (Json.canonicalMembers (base.present v).front) :=
    Json.ExactMembers.canonical (Json.exactMembers_iff.mpr (front_exact _))
  rw [own] at baseHeld
  rw [other] at otherHeld
  obtain ⟨made, same, run⟩ := Patch.apply_delta_larger back names baseHeld otherHeld
  obtain rfl := exact.eq_of_same same
  have changes : (base.overrideFor v).patch = Patch.delta (.object (Json.canonicalMembers base.front))
      (.object (Json.canonicalMembers (base.present v).front)) := by
    rw [overrideFor, delta, own, other]
  have read : ofJson? (value (present { base with overrides } v)) =
      some (present { base with overrides } v) := read ⟨held.references, held.overrides⟩
  rw [result] at read
  rw [patched, changes, whole, run]
  simp only [read]

theorem overridesFor_held {base : Page} (plain : base.overrides = []) (indexable : base.json.Indexable)
    (variants : List Presentation) : ∀ o ∈ base.overridesFor variants, o.Held := by
  intro o member
  obtain ⟨v, _, rfl⟩ := List.mem_map.mp member
  intro change inside
  rw [overrideFor, delta, Patch.delta] at inside
  exact Patch.deltaAt_held _ _ _ (present_value_held plain indexable) change inside

/-- The overrides of a published page apply to it: each makes the page in its own language, where
the language, the title and the declarations are those of the variant and nothing else differs. -/
theorem patched_overridesFor (base : Page) (variants : List Presentation)
    (plain : base.overrides = []) (references : Assoc.Rising base.references)
    (indexable : base.json.Indexable) :
    let page : Page := { base with overrides := base.overridesFor variants }
    List.Forall₂ (fun v o => page.patched o.patch = .ok { page with
        language := v.language
        metadata := { page.metadata with title := v.title }
        sections := page.sections.map fun s =>
          match s with
          | .declarations _ => .declarations [{ languages := [v.language], text := v.declaration }]
          | .content blocks => .content blocks })
      variants page.overrides := by
  intro page
  have held : page.Held := ⟨references, overridesFor_held plain indexable variants⟩
  refine List.forall₂_map_right_iff.mpr (List.forall₂_same.mpr fun v _ => ?_)
  rw [patched_overrideFor plain indexable held, present]
  rfl

theorem patched_overridesFor_part :
    let base : Page := {
      summary := [.text "A part of ", .reference "doc://kit/documentation/Kit" true none]
      hierarchy := [["doc://kit/documentation/Kit"]]
      language := "swift", identifier := "doc://kit/documentation/Kit/Part", kind := "symbol"
      metadata := {
        module := some "Kit", role := "class", roleHeading := "Class", title := "Part" }
      sections := [.declarations [⟨["swift"], "class Part"⟩], .content [.heading "uses" 2 "Uses"]]
      references := [("doc://kit/documentation/Kit",
        .topic [] "doc://kit/documentation/Kit" "symbol" "collection" "Kit" "/documentation/kit")] }
    let page : Page := { base with
      overrides := base.overridesFor [⟨"occ", "KITPart", "@interface KITPart"⟩] }
    List.Forall₂ (fun (v : Presentation) o => page.patched o.patch = .ok { page with
        language := v.language
        metadata := { page.metadata with title := v.title }
        sections := page.sections.map fun s =>
          match s with
          | .declarations _ => .declarations [{ languages := [v.language], text := v.declaration }]
          | .content blocks => .content blocks })
      [⟨"occ", "KITPart", "@interface KITPart"⟩] page.overrides :=
  patched_overridesFor _ _ rfl (List.pairwise_singleton _ _)
    ((front_indexable rfl).mpr (by
      simp [front, listMember, optionalMember, Inline.listJson, Inline.json, hierarchyJson, textsJson,
        identityJson, Metadata.json, Section.json, Declaration.json, Block.json, Reference.mapJson,
        Reference.json, Json.whole, Json.Indexable, Json.IndexableItems, Json.IndexableMembers,
        Pointer.largestIndex]))

end Page

end Rendered

end Concordance
