import Mathlib
import Concordance.Proofs.Link.Address
import Concordance.Proofs.Link.RoundTrip

/-! # Links to headings

The identifier of a page that reads back reads back with the mark of a fragment and any text
behind it: what is read is a link to the page, and the fragment has the slug of the text.
-/

namespace Concordance

namespace Component

theorem length_cutFrom (depth : Nat) (afterSlash : Bool) (current rest : List Char) :
    ((cutFrom depth afterSlash current rest).map fun s => s.length + 1).sum ≤
      current.length + rest.length + 1 := by
  have emitted (current : List Char) :
      ((emit current).map fun s => s.length + 1).sum ≤ current.length + 1 := by
    cases current <;> simp [emit]
  induction rest generalizing depth afterSlash current with
  | nil => exact emitted current
  | cons c rest ih =>
      rw [cutFrom, List.length_cons]
      split
      · split
        · have later := ih depth false [c]
          rw [List.length_singleton] at later
          omega
        · have first := emitted current
          have later := ih depth true []
          rw [List.map_append, List.sum_append]
          rw [List.length_nil] at later
          omega
      · have later := ih (parenDepth depth c) false (current ++ [c])
        rw [List.length_append, List.length_singleton] at later
        omega

theorem length_intercalate {components : List (List Char)} (some : components ≠ []) :
    (['/'].intercalate components).length + 1 = (components.map fun s => s.length + 1).sum := by
  induction components with
  | nil => exact absurd rfl some
  | cons s components ih =>
      cases components with
      | nil => simp
      | cons t components =>
          have later := ih (List.cons_ne_nil t components)
          rw [List.intercalate_cons_cons, List.map_cons, List.sum_cons, ← later]
          simp only [List.length_append, List.length_singleton]
          omega

theorem dropEndWhile_of_cutFrom {components : List (List Char)}
    (found : cutFrom 0 true [] (Text.dropEndWhile Text.isBlank (['/'].intercalate components)) =
      components) :
    Text.dropEndWhile Text.isBlank (['/'].intercalate components) =
      ['/'].intercalate components := by
  by_cases none : components = []
  · subst none
    rfl
  · -- All the components need as much room as the joined path has.
    have kept := length_cutFrom 0 true []
      (Text.dropEndWhile Text.isBlank (['/'].intercalate components))
    rw [found, ← length_intercalate none, List.length_nil] at kept
    have start : Text.dropEndWhile Text.isBlank (['/'].intercalate components) <+:
        ['/'].intercalate components := List.rdropWhile_prefix _ _
    exact start.eq_of_length_le (by omega)

end Component

namespace WrittenLink

theorem parse_scheme {raw : String} {body : List Char}
    (text : raw.toList = "doc://".toList ++ body) :
    parse raw = ofIdentifierBody
      (String.ofList ("doc://".toList ++ Text.dropEndWhile Text.isBlank body))
      (Text.dropEndWhile Text.isBlank body) := by
  have trimmed : Text.trimChars raw.toList =
      "doc://".toList ++ Text.dropEndWhile Text.isBlank body := by
    rw [text]
    exact Text.dropEndWhile_append_cons (by decide) "doc:/".toList body
  have some : ("doc://".toList ++ Text.dropEndWhile Text.isBlank body).isEmpty = false := rfl
  simp only [parse, trimmed, some, Text.stripStart?_append, Bool.false_eq_true, if_false]

theorem cutFragment_eq_self {s : List Char} (unmarked : '#' ∉ s) : cutFragment s = (s, none) := by
  rw [cutFragment, Text.cut?_eq_none unmarked]

theorem cutFragment_append {s : List Char} (unmarked : '#' ∉ s) (text : List Char) :
    cutFragment (s ++ '#' :: text) =
      (s, if text.isEmpty then none else some (String.ofList text)) := by
  rw [cutFragment, Text.cut?_append unmarked]
  cases text <;> rfl

end WrittenLink

namespace Address

variable {address : Address}

/-- The page, or the heading on it that has the slug of a text. -/
def heading (address : Address) : Option String → Address
  | none => address
  | some text => address.withFragment text

@[simp]
theorem heading_path (text : Option String) : (address.heading text).path = address.path := by
  cases text with
  | none => rfl
  | some text => exact address.withFragment_path text

@[simp]
theorem heading_page (text : Option String) : (address.heading text).page = address.page := by
  cases text with
  | none => rfl
  | some text => exact address.withFragment_page text

/-- Addresses of pages whose identifiers spell out their bundle and path. -/
structure Legible (address : Address) : Prop where
  whole : address.fragment = none
  named : address.bundle ≠ ""
  bundle_slash : '/' ∉ address.bundle.toList
  unmarked : '#' ∉ address.location
  components : Component.cutFrom 0 true [] (['/'].intercalate (address.path.map String.toList)) =
    address.path.map String.toList

theorem parse_of_ofIdentifier (read : ofIdentifier address.identifier = .ok address) :
    ∃ link, WrittenLink.parse address.identifier = .ok link ∧
      link.bundle = some address.bundle ∧ link.components = address.path := by
  rw [ofIdentifier] at read
  cases parsed : WrittenLink.parse address.identifier with
  | error flaw =>
      rw [parsed] at read
      cases read
  | ok link =>
      refine ⟨link, rfl, ?_⟩
      simp only [parsed, bind, Except.bind] at read
      split at read
      · cases read
      · rename_i bundle named
        have same := Except.ok.inj read
        rw [named, ← same]
        cases link.fragment with
        | none => exact ⟨rfl, rfl⟩
        | some text => exact ⟨by rw [withFragment_bundle], by rw [withFragment_path]⟩

theorem legible_of_ofIdentifier (whole : address.fragment = none)
    (read : ofIdentifier address.identifier = .ok address) : address.Legible := by
  obtain ⟨link, parsed, bundle, path⟩ := parse_of_ofIdentifier read
  have written : address.identifier.toList = "doc://".toList ++ address.location := by
    simp [identifier_toList, fragmentText, whole]
  -- Of the location, all but blanks at its end is read: bundle and root for certain.
  let joined := ['/'].intercalate (address.path.map String.toList)
  have kept : Text.dropEndWhile Text.isBlank address.location = address.bundle.toList ++ '/' ::
      (WrittenLink.documentationRoot.toList ++ '/' :: Text.dropEndWhile Text.isBlank joined) := by
    rw [location, Text.dropEndWhile_append_cons (by decide),
      Text.dropEndWhile_append_cons (by decide)]
  rw [WrittenLink.parse_scheme written] at parsed
  obtain ⟨noBundle, noPath, -⟩ := WrittenLink.ofIdentifierBody_unmarked parsed
  obtain ⟨named, slash⟩ := WrittenLink.ofIdentifierBody_bundle parsed bundle
  have unmarked := location_unmarked (noBundle _ bundle) (path ▸ noPath)
  have start : Text.dropEndWhile Text.isBlank address.location <+: address.location :=
    List.rdropWhile_prefix _ _
  have cut := WrittenLink.cutFragment_eq_self fun mark => unmarked (start.subset mark)
  rw [WrittenLink.ofIdentifierBody_root named slash (cut.trans (by rw [kept]))] at parsed
  cases parsed
  have found : Component.cutFrom 0 true [] (Text.dropEndWhile Text.isBlank joined) =
      address.path.map String.toList := by
    rw [← path, List.map_map]
    simp [Function.comp_def]
  have same := Component.dropEndWhile_of_cutFrom found
  exact ⟨whole, named, slash, unmarked, same ▸ found⟩

/-- The blanks at the end of a text do not matter for the heading that it names, and without them
there may be no fragment. -/
theorem heading_trimEnd (whole : address.fragment = none) (text : String) :
    address.heading
        (if (Text.trimEnd text).toList.isEmpty then none else some (Text.trimEnd text)) =
      address.withFragment text := by
  rw [withFragment, ← Text.slug_trimEnd]
  split
  · rename_i blank
    rw [String.toList_eq_nil_iff.mp (List.isEmpty_iff.mp blank)]
    cases address
    cases whole
    rfl
  · rfl

theorem Legible.parse_mark (legible : address.Legible) (text : String) :
    ∃ link, WrittenLink.parse (address.identifier ++ "#" ++ text) = .ok link ∧
      link.components = address.path ∧
      address.heading link.fragment = address.withFragment text := by
  have written : (address.identifier ++ "#" ++ text).toList =
      "doc://".toList ++ (address.location ++ '#' :: text.toList) := by
    simp [String.toList_append, identifier_toList, fragmentText, legible.whole]
  have components : (Component.cutFrom 0 true []
      (['/'].intercalate (address.path.map String.toList))).map String.ofList = address.path := by
    rw [legible.components, List.map_map]
    simp [Function.comp_def]
  have cut := WrittenLink.cutFragment_append legible.unmarked
    (Text.dropEndWhile Text.isBlank text.toList)
  rw [WrittenLink.parse_scheme written, Text.dropEndWhile_append_cons (by decide)]
  refine ⟨_, WrittenLink.ofIdentifierBody_root legible.named legible.bundle_slash cut _,
    components, ?_⟩
  have same := heading_trimEnd legible.whole text
  rwa [Text.trimEnd, String.toList_ofList] at same

/-- A page whose identifier reads back has links to all its headings: with or without a mark and any
text behind it, the identifier is read as a link to what they name. -/
theorem parse_heading (whole : address.fragment = none)
    (read : ofIdentifier address.identifier = .ok address) (text : Option String) :
    ∃ link, WrittenLink.parse (address.identifier ++ text.elim "" ("#" ++ ·)) = .ok link ∧
      link.components = address.path ∧
      address.heading link.fragment = address.heading text := by
  cases text with
  | none =>
      obtain ⟨link, parsed, bundle, path⟩ := parse_of_ofIdentifier read
      refine ⟨link, by simpa using parsed, path, ?_⟩
      rw [identifier_fragment whole parsed bundle path]
  | some text =>
      have marked := (legible_of_ofIdentifier whole read).parse_mark text
      rwa [String.append_assoc] at marked

end Address

end Concordance
