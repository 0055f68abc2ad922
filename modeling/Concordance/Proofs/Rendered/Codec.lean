import Mathlib
import Concordance.Proofs.Json.Decoder
import Concordance.Proofs.Json.Patch
import Concordance.Rendered.Codec

/-! # Pages are read as they were written

The JSON form of every part of a rendered page, in canonical form, is read as that
part. What is left out of the form is what reading puts in its place.
-/

namespace Concordance

namespace Rendered

open Decode

section Members

variable {α : Type}

@[simp] theorem get?_optionalMember (name : String) (t : Option String) (k : String) :
    Assoc.get? (optionalMember name t) k = if k = name then t.map .string else none := by
  cases t with
  | none => simp [optionalMember]
  | some s => simp [optionalMember]

@[simp] theorem get?_listMember (name : String) (item : α → Json) (l : List α) (k : String) :
    Assoc.get? (listMember name item l) k =
      if k = name then if l = [] then none else some (.array (l.map item)) else none := by
  cases l with
  | nil => simp [listMember]
  | cons x xs => simp [listMember]

theorem optionalMember_keys (name : String) (t : Option String) :
    (Assoc.keys (optionalMember name t)).Sublist [name] := by
  cases t with
  | none => exact List.nil_sublist _
  | some s => exact .refl _

theorem listMember_keys (name : String) (item : α → Json) (l : List α) :
    (Assoc.keys (listMember name item l)).Sublist [name] := by
  cases l with
  | nil => exact List.nil_sublist _
  | cons x xs => exact .refl _

end Members

theorem texts_read (texts : List String) : list text (textsJson texts).canonical = some texts :=
  list_canonical fun s _ => text_canonical s

section Prose

variable (within : Bool)

theorem Inline.read (x : Inline) : ofJson? within x.json.canonical = some x := by
  cases x with
  | code s =>
      have known : (Assoc.keys [("code", Json.string s)]).Sublist ["code"] := .refl _
      obtain ⟨rest, r, chosen, read, holds⟩ := choice_canonical typeTag "codeVoice"
        (if within then forms else []) known (by decide)
      simp [ofJson?, json, chosen, read, holds.required, text_canonical]
  | reference identifier isActive title =>
      have known : (Assoc.keys ([("identifier", Json.string identifier), ("isActive", .bool isActive)]
          ++ optionalMember "overrideTitle" title)).Sublist
            ["identifier", "isActive", "overrideTitle"] := by
        rw [Assoc.keys_append]
        exact .append (.refl _) (optionalMember_keys _ _)
      obtain ⟨rest, r, chosen, read, holds⟩ := choice_canonical typeTag "reference"
        (if within then forms else []) known (by decide)
      simp only [List.cons_append, List.nil_append] at chosen
      simp [ofJson?, json, chosen, read, holds.required, holds.defaulted, text_canonical,
        truth_canonical, orMissing_text]
  | text s =>
      have known : (Assoc.keys [("text", Json.string s)]).Sublist ["text"] := .refl _
      obtain ⟨rest, r, chosen, read, holds⟩ := choice_canonical typeTag "text"
        (if within then forms else []) known (by decide)
      simp [ofJson?, json, chosen, read, holds.required, text_canonical]

theorem Inline.list_read (xs : List Inline) :
    listOfJson? within (listJson xs).canonical = some xs :=
  list_canonical fun x _ => Inline.read within x

theorem items_read (items : List (List Inline)) :
    list (Inline.listOfJson? within) (Json.array (items.map Inline.listJson)).canonical = some items :=
  list_canonical fun xs _ => Inline.list_read within xs

theorem Block.read (b : Block) : ofJson? within b.json.canonical = some b := by
  cases b with
  | code lines language =>
      have known : (Assoc.keys
          ([("code", textsJson lines)] ++ optionalMember "syntax" language)).Sublist
            ["code", "syntax"] := by
        rw [Assoc.keys_append]
        exact .append (.refl _) (optionalMember_keys _ _)
      obtain ⟨rest, r, chosen, read, holds⟩ := choice_canonical typeTag "codeListing"
        (if within then forms else []) known (by decide)
      simp only [List.cons_append, List.nil_append] at chosen
      simp [ofJson?, json, chosen, read, holds.required, holds.defaulted, texts_read,
        orMissing_text]
  | heading anchor level s =>
      have known : (Assoc.keys [("anchor", Json.string anchor), ("level", .whole level.toNat),
          ("text", .string s)]).Sublist ["anchor", "level", "text"] := .refl _
      obtain ⟨rest, r, chosen, read, holds⟩ := choice_canonical typeTag "heading"
        (if within then forms else []) known (by decide)
      simp [ofJson?, json, chosen, read, holds.required, text_canonical,
        byte_canonical level.toNat_lt]
  | orderedList items =>
      have known : (Assoc.keys [("items", Json.array (items.map Inline.listJson))]).Sublist
          ["items"] := .refl _
      obtain ⟨rest, r, chosen, read, holds⟩ := choice_canonical typeTag "orderedList"
        (if within then forms else []) known (by decide)
      simp [ofJson?, json, chosen, read, holds.required, items_read]
  | paragraph content =>
      have known : (Assoc.keys [("inlineContent", Inline.listJson content)]).Sublist
          ["inlineContent"] := .refl _
      obtain ⟨rest, r, chosen, read, holds⟩ := choice_canonical typeTag "paragraph"
        (if within then forms else []) known (by decide)
      simp [ofJson?, json, chosen, read, holds.required, Inline.list_read]
  | unorderedList items =>
      have known : (Assoc.keys [("items", Json.array (items.map Inline.listJson))]).Sublist
          ["items"] := .refl _
      obtain ⟨rest, r, chosen, read, holds⟩ := choice_canonical typeTag "unorderedList"
        (if within then forms else []) known (by decide)
      simp [ofJson?, json, chosen, read, holds.required, items_read]

theorem blocks_read (blocks : List Block) :
    list (Block.ofJson? within) (Json.array (blocks.map Block.json)).canonical = some blocks :=
  list_canonical fun b _ => Block.read within b

end Prose

section Parts

theorem Declaration.read (d : Declaration) : ofJson? d.json.canonical = some d := by
  have known : (Assoc.keys [("languages", textsJson d.languages), ("text", .string d.text)]).Sublist
      ["languages", "text"] := .refl _
  obtain ⟨r, read, holds⟩ := record_canonical known (by decide)
  simp [ofJson?, json, read, holds.required, texts_read, text_canonical]

theorem Section.read (s : Section) : ofJson? s.json.canonical = some s := by
  cases s with
  | content blocks =>
      have known : (Assoc.keys [("content", Json.array (blocks.map Block.json))]).Sublist
          ["content"] := .refl _
      obtain ⟨rest, r, chosen, read, holds⟩ := choice_canonical kindTag "content" [] known (by decide)
      simp [ofJson?, json, chosen, read, holds.required, blocks_read]
  | declarations ds =>
      have known : (Assoc.keys [("declarations", Json.array (ds.map Declaration.json))]).Sublist
          ["declarations"] := .refl _
      obtain ⟨rest, r, chosen, read, holds⟩ := choice_canonical kindTag "declarations" [] known
        (by decide)
      have all : list Declaration.ofJson? (Json.array (ds.map Declaration.json)).canonical = some ds :=
        list_canonical fun d _ => Declaration.read d
      simp [ofJson?, json, chosen, read, holds.required, all]

theorem Group.read (g : Group) : ofJson? g.json.canonical = some g := by
  have known : (Assoc.keys ((if g.generated then [("generated", Json.bool true)] else [])
      ++ [("identifiers", textsJson g.identifiers), ("title", .string g.title)])).Sublist
        ["generated", "identifiers", "title"] := by
    have flag : (Assoc.keys (if g.generated then [("generated", Json.bool true)] else [])).Sublist
        ["generated"] := by
      cases g.generated with
      | false => exact List.nil_sublist _
      | true => exact .refl _
    rw [Assoc.keys_append]
    exact flag.append (.refl _)
  obtain ⟨r, read, holds⟩ := record_canonical known (by decide)
  have generated : orMissing false truth (Assoc.get?
      (if g.generated then [("generated", Json.bool true)] else []) "generated") =
      some g.generated := by
    cases g.generated with
    | false => rfl
    | true => rfl
  have later (name : String) (different : name ≠ "generated") :
      Assoc.get? (if g.generated then [("generated", Json.bool true)] else []) name = none := by
    cases g.generated <;> simp [different]
  simp [ofJson?, json, read, holds.required, holds.defaulted, generated, later, texts_read,
    text_canonical]

theorem Relations.read (s : Relations) : ofJson? s.json.canonical = some s := by
  have known : (Assoc.keys [("identifiers", textsJson s.identifiers), ("kind", .string s.kind),
      ("title", .string s.title)]).Sublist ["identifiers", "kind", "title"] := .refl _
  obtain ⟨r, read, holds⟩ := record_canonical known (by decide)
  simp [ofJson?, json, read, holds.required, texts_read, text_canonical]

theorem Chapter.read (c : Chapter) : ofJson? c.json.canonical = some c := by
  have known : (Assoc.keys [("anchor", Json.string c.anchor),
      ("content", .array (c.content.map Block.json)), ("steps", .array (c.steps.map Inline.listJson)),
      ("title", .string c.title)]).Sublist ["anchor", "content", "steps", "title"] := .refl _
  obtain ⟨r, read, holds⟩ := record_canonical known (by decide)
  simp [ofJson?, json, read, holds.required, text_canonical, blocks_read, items_read]

end Parts

end Rendered

open Decode in
theorem Availability.read (a : Availability) : ofJson? a.json.canonical = some a := by
  have known : (Assoc.keys (Rendered.optionalMember "deprecated" a.deprecated
      ++ Rendered.optionalMember "introduced" a.introduced
      ++ [("platform", Json.string a.platform)])).Sublist
        ["deprecated", "introduced", "platform"] := by
    rw [Assoc.keys_append, Assoc.keys_append]
    exact .append (.append (Rendered.optionalMember_keys _ _) (Rendered.optionalMember_keys _ _))
      (.refl _)
  obtain ⟨r, read, holds⟩ := record_canonical known (by decide)
  have written : a.json = .object (Rendered.optionalMember "deprecated" a.deprecated
      ++ Rendered.optionalMember "introduced" a.introduced
      ++ [("platform", Json.string a.platform)]) := by
    rw [json]
    cases a.deprecated <;> cases a.introduced <;> rfl
  rw [ofJson?, written, read]
  simp [holds.required, holds.defaulted, text_canonical, orMissing_text]

namespace Rendered

open Decode

section Wholes

theorem Metadata.read (m : Metadata) : ofJson? m.json.canonical = some m := by
  have known : (Assoc.keys (optionalMember "module" m.module
      ++ listMember "platforms" Availability.json m.platforms
      ++ [("role", .string m.role), ("roleHeading", .string m.roleHeading)]
      ++ optionalMember "symbolKind" m.symbolKind ++ [("title", .string m.title)])).Sublist
        ["module", "platforms", "role", "roleHeading", "symbolKind", "title"] := by
    simp only [Assoc.keys_append]
    exact ((((optionalMember_keys _ _).append (listMember_keys _ _ _)).append (.refl _)).append
      (optionalMember_keys _ _)).append (.refl _)
  obtain ⟨r, read, holds⟩ := record_canonical known (by decide)
  rw [ofJson?, json, read]
  simp [holds.required, holds.defaulted, text_canonical, orMissing_text,
    orMissing_list fun a _ => Availability.read a]

theorem Reference.read (x : Reference) : ofJson? x.json.canonical = some x := by
  cases x with
  | link identifier title url =>
      have known : (Assoc.keys [("identifier", Json.string identifier), ("title", .string title),
          ("url", .string url)]).Sublist ["identifier", "title", "url"] := .refl _
      obtain ⟨rest, r, chosen, read, holds⟩ := choice_canonical typeTag "link" [] known (by decide)
      simp [ofJson?, json, chosen, read, holds.required, text_canonical]
  | topic summary identifier kind role title url =>
      have known : (Assoc.keys [("abstract", Inline.listJson summary),
          ("identifier", Json.string identifier), ("kind", .string kind), ("role", .string role),
          ("title", .string title), ("url", .string url)]).Sublist
            ["abstract", "identifier", "kind", "role", "title", "url"] := .refl _
      obtain ⟨rest, r, chosen, read, holds⟩ := choice_canonical typeTag "topic" [] known (by decide)
      simp [ofJson?, json, chosen, read, holds.required, text_canonical, Inline.list_read]
  | unresolved identifier title =>
      have known : (Assoc.keys [("identifier", Json.string identifier),
          ("title", .string title)]).Sublist ["identifier", "title"] := .refl _
      obtain ⟨rest, r, chosen, read, holds⟩ := choice_canonical typeTag "unresolved" [] known
        (by decide)
      simp [ofJson?, json, chosen, read, holds.required, text_canonical]

theorem hierarchy_read (paths : List (List String)) :
    Page.hierarchyOfJson? (Page.hierarchyJson paths).canonical = some paths := by
  have known : (Assoc.keys [("paths", Json.array (paths.map textsJson))]).Sublist ["paths"] := .refl _
  obtain ⟨r, read, holds⟩ := record_canonical known (by decide)
  have all : list (list text) (Json.array (paths.map textsJson)).canonical = some paths :=
    list_canonical fun path _ => texts_read path
  simp [Page.hierarchyOfJson?, Page.hierarchyJson, read, holds.required, all]

theorem identity_read (language identifier : String) :
    Page.identityOfJson? (Page.identityJson language identifier).canonical =
      some (language, identifier) := by
  have known : (Assoc.keys [("interfaceLanguage", Json.string language),
      ("url", .string identifier)]).Sublist ["interfaceLanguage", "url"] := .refl _
  obtain ⟨r, read, holds⟩ := record_canonical known (by decide)
  simp [Page.identityOfJson?, Page.identityJson, read, holds.required, text_canonical]

end Wholes

end Rendered

def Change.Canonical : Change → Prop
  | add _ value | replace _ value => value.canonical = value
  | remove _ => True

theorem Change.Held.canonical {c : Change} (held : c.Held) : c.Canonical := by
  cases c with
  | add pointer value => exact Json.Held.canonical held
  | replace pointer value => exact Json.Held.canonical held
  | remove pointer => trivial

open Decode in
theorem Change.read {c : Change} (canonical : c.Canonical) : ofJson? c.json.canonical = some c := by
  cases c with
  | add pointer value =>
      have known : (Assoc.keys [("path", Json.string pointer), ("value", value)]).Sublist
          ["path", "value"] := .refl _
      obtain ⟨rest, r, chosen, read, holds⟩ := choice_canonical tag "add" [] known (by decide)
      have same : value.canonical = value := canonical
      simp [ofJson?, json, chosen, read, holds.required, text_canonical, Decode.value, same]
  | remove pointer =>
      have known : (Assoc.keys [("path", Json.string pointer)]).Sublist ["path"] := .refl _
      obtain ⟨rest, r, chosen, read, holds⟩ := choice_canonical tag "remove" [] known (by decide)
      simp [ofJson?, json, chosen, read, holds.required, text_canonical]
  | replace pointer value =>
      have known : (Assoc.keys [("path", Json.string pointer), ("value", value)]).Sublist
          ["path", "value"] := .refl _
      obtain ⟨rest, r, chosen, read, holds⟩ := choice_canonical tag "replace" [] known (by decide)
      have same : value.canonical = value := canonical
      simp [ofJson?, json, chosen, read, holds.required, text_canonical, Decode.value, same]

namespace Rendered

open Decode

section Pages

def Override.Held (o : Override) : Prop := ∀ change ∈ o.patch, change.Held

def Override.Canonical (o : Override) : Prop := ∀ change ∈ o.patch, change.Canonical

theorem language_read (language : String) :
    Override.languageOfJson? (Override.languageJson language).canonical = some language := by
  have known : (Assoc.keys [("interfaceLanguage", Json.string language)]).Sublist
      ["interfaceLanguage"] := .refl _
  obtain ⟨r, read, holds⟩ := record_canonical known (by decide)
  simp [Override.languageOfJson?, Override.languageJson, read, holds.required, text_canonical]

theorem Override.read {o : Override} (canonical : o.Canonical) :
    ofJson? o.json.canonical = some o := by
  have known : (Assoc.keys [("patch", o.patch.json),
      ("traits", .array (o.languages.map languageJson))]).Sublist ["patch", "traits"] := .refl _
  obtain ⟨r, read, holds⟩ := record_canonical known (by decide)
  have changes : Patch.ofJson? o.patch.json.canonical = some o.patch :=
    list_canonical fun change member => Change.read (canonical change member)
  have languages : list languageOfJson? (Json.array (o.languages.map languageJson)).canonical =
      some o.languages :=
    list_canonical fun language _ => language_read language
  simp [ofJson?, json, read, holds.required, changes, languages]

/-- A page as it is held in memory: its references in order of their identifiers, and the values of
its overrides in canonical form. -/
structure Page.Held (p : Page) : Prop where
  references : Assoc.Rising p.references
  overrides : ∀ o ∈ p.overrides, o.Held

/-- A page whose references are in order of their identifiers, and whose overrides hold values in
canonical form, however long their arrays are. -/
structure Page.Canonical (p : Page) : Prop where
  references : Assoc.Rising p.references
  overrides : ∀ o ∈ p.overrides, o.Canonical

theorem Page.Held.canonical {p : Page} (held : p.Held) : p.Canonical where
  references := held.references
  overrides o member change inside := (held.overrides o member change inside).canonical

theorem Page.known (p : Page) : ∃ members, p.json = .object members ∧
    (Assoc.keys members).Sublist memberNames := by
  refine ⟨_, rfl, ?_⟩
  simp only [Assoc.keys_append]
  exact (((((((List.Sublist.refl _).append (listMember_keys _ _ _)).append (.refl _)).append
    (listMember_keys _ _ _)).append (listMember_keys _ _ _)).append (listMember_keys _ _ _)).append
    (listMember_keys _ _ _)).append (listMember_keys _ _ _)

/-- Every page is read as it was written. -/
theorem Page.read_canonical {p : Page} (canonical : p.Canonical) :
    ofJson? p.json.canonical = some p := by
  obtain ⟨members, written, known⟩ := p.known
  obtain ⟨r, read, holds⟩ := record_canonical known (by decide)
  rw [ofJson?, written, read]
  rw [json, Json.object.injEq] at written
  subst written
  have summary : r.required "abstract" (Inline.listOfJson? false) = some p.summary :=
    holds.required_eq (by simp) (Inline.list_read false _)
  have hierarchy : r.required "hierarchy" hierarchyOfJson? = some p.hierarchy :=
    holds.required_eq (by simp) (hierarchy_read _)
  have identity : r.required "identifier" identityOfJson? = some (p.language, p.identifier) :=
    holds.required_eq (by simp) (identity_read _ _)
  have kind : r.required "kind" text = some p.kind :=
    holds.required_eq (by simp) (text_canonical _)
  have metadata : r.required "metadata" Metadata.ofJson? = some p.metadata :=
    holds.required_eq (by simp) (Metadata.read _)
  have sections : r.defaulted "primaryContentSections" [] (list Section.ofJson?) = some p.sections :=
    holds.list_eq (by simp) fun s _ => Section.read s
  have references : r.defaulted "references" [] (map Reference.ofJson?) = some p.references :=
    holds.defaulted_eq
      (by simp [Reference.mapJson])
      (map_canonical canonical.references fun entry _ => Reference.read entry.2)
  have relations :
      r.defaulted "relationshipsSections" [] (list Relations.ofJson?) = some p.relations :=
    holds.list_eq (by simp) fun s _ => Relations.read s
  have chapters : r.defaulted "sections" [] (list Chapter.ofJson?) = some p.chapters :=
    holds.list_eq (by simp) fun c _ => Chapter.read c
  have seeAlso : r.defaulted "seeAlsoSections" [] (list Group.ofJson?) = some p.seeAlso :=
    holds.list_eq (by simp) fun g _ => Group.read g
  have topics : r.defaulted "topicSections" [] (list Group.ofJson?) = some p.topics :=
    holds.list_eq (by simp) fun g _ => Group.read g
  have overrides : r.defaulted "variantOverrides" [] (list Override.ofJson?) = some p.overrides :=
    holds.list_eq (by simp) fun o member => Override.read (canonical.overrides o member)
  rw [Option.bind_eq_bind, Option.bind_some, summary, hierarchy, identity, kind, metadata, sections,
    references, relations, chapters, seeAlso, topics, overrides]
  rfl

theorem Page.read {p : Page} (held : p.Held) : ofJson? p.json.canonical = some p :=
  read_canonical held.canonical

end Pages

end Rendered

end Concordance
