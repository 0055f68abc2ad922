import Mathlib
import Concordance.Link.Address
import Concordance.Proofs.Link.Parsed
import Concordance.Proofs.Text.Cut

/-! # Reading identifiers

What reading a text can find was there before: bundle, components and fragment
consist of its characters. So an identifier without a fragment that is read as its
own bundle and path is read without a fragment. Of pages below one page, the identifiers
differ as their last components do.
-/

namespace Concordance

namespace Text

theorem mem_of_mem_trimChars {s : List Char} {c : Char} (member : c ∈ trimChars s) : c ∈ s := by
  have front := List.mem_reverse.mp member
  have back := List.mem_reverse.mp ((List.dropWhile_sublist _).subset front)
  exact (List.dropWhile_sublist _).subset back

theorem mem_of_stripStart? {lead s rest : List Char} {c : Char}
    (found : stripStart? lead s = some rest) (member : c ∈ rest) : c ∈ s := by
  rw [stripStart?_eq_some_iff.mp found]
  exact List.mem_append_right _ member

theorem mem_of_mem_intercalate {mark : List Char} {pieces : List (List Char)} {c : Char}
    (member : c ∈ mark.intercalate pieces) : c ∈ mark ∨ ∃ piece ∈ pieces, c ∈ piece := by
  induction pieces with
  | nil => cases member
  | cons piece pieces ih =>
      cases pieces with
      | nil => exact .inr ⟨piece, List.mem_cons_self, by simpa using member⟩
      | cons next pieces =>
          rw [List.intercalate_cons_cons, List.mem_append, List.mem_append] at member
          rcases member with (here | between) | later
          · exact .inr ⟨piece, List.mem_cons_self, here⟩
          · exact .inl between
          · rcases ih later with between | ⟨other, among, inside⟩
            · exact .inl between
            · exact .inr ⟨other, List.mem_cons_of_mem _ among, inside⟩

theorem intercalate_concat_inj {mark : List Char} {pieces : List (List Char)}
    {last last' : List Char}
    (same : mark.intercalate (pieces ++ [last]) = mark.intercalate (pieces ++ [last'])) :
    last = last' := by
  induction pieces with
  | nil => simpa only [List.nil_append, List.intercalate_singleton] using same
  | cons piece pieces ih =>
      have some (last : List Char) : pieces ++ [last] ≠ [] := by simp
      rw [List.cons_append, List.cons_append, List.intercalate_cons_of_ne_nil (some last),
        List.intercalate_cons_of_ne_nil (some last')] at same
      exact ih (List.append_cancel_left same)

end Text

namespace Component

theorem mem_of_mem_cutFrom {depth : Nat} {afterSlash : Bool} {current rest component : List Char}
    {c : Char} (found : component ∈ cutFrom depth afterSlash current rest)
    (member : c ∈ component) : c ∈ current ∨ c ∈ rest := by
  have emitted {read : List Char} (found : component ∈ emit read) : c ∈ read := by
    rw [emit] at found
    split at found
    · cases found
    · exact List.mem_singleton.mp found ▸ member
  induction rest generalizing depth afterSlash current with
  | nil => exact .inl (emitted found)
  | cons d rest ih =>
      rw [cutFrom] at found
      split at found
      · split at found
        · rcases ih found with here | later
          · exact .inr (List.mem_singleton.mp here ▸ List.mem_cons_self)
          · exact .inr (List.mem_cons_of_mem _ later)
        · rcases List.mem_append.mp found with first | found
          · exact .inl (emitted first)
          · rcases ih found with here | later
            · cases here
            · exact .inr (List.mem_cons_of_mem _ later)
      · rcases ih found with here | later
        · rcases List.mem_append.mp here with before | here
          · exact .inl before
          · exact .inr (List.mem_singleton.mp here ▸ List.mem_cons_self)
        · exact .inr (List.mem_cons_of_mem _ later)

theorem mem_of_mem_cut {path : List Char} {component : String} {c : Char}
    (found : component ∈ cut path) (member : c ∈ component.toList) : c ∈ path := by
  obtain ⟨chars, emitted, rfl⟩ := List.mem_map.mp found
  rw [String.toList_ofList] at member
  rcases mem_of_mem_cutFrom emitted member with here | there
  · cases here
  · exact there

end Component

namespace WrittenLink

theorem mem_of_mem_dropRoot {components : List String} {component : String}
    (found : component ∈ dropRoot components) : component ∈ components := by
  cases components with
  | nil => exact found
  | cons first rest =>
      rw [dropRoot] at found
      split at found
      · exact List.mem_cons_of_mem _ found
      · exact found

theorem cutFragment_facts (s : List Char) :
    '#' ∉ (cutFragment s).1 ∧ ((cutFragment s).2 ≠ none → '#' ∈ s) := by
  rw [cutFragment]
  cases cutting : Text.cut? '#' s with
  | none => exact ⟨Text.not_mem_of_cut? cutting, fun some => absurd rfl some⟩
  | some parts =>
      obtain ⟨location, rest⟩ := parts
      obtain ⟨whole, absent⟩ := Text.cut?_eq_some cutting
      have marked : '#' ∈ s := by simp [whole]
      cases rest with
      | nil => exact ⟨absent, fun _ => marked⟩
      | cons first rest => exact ⟨absent, fun _ => marked⟩

/-- A fragment is cut off before bundle and path are told apart, so that neither holds its mark. -/
theorem ofIdentifierBody_unmarked {text : String} {body : List Char} {link : WrittenLink}
    (h : ofIdentifierBody text body = .ok link) :
    (∀ bundle, link.bundle = some bundle → '#' ∉ bundle.toList) ∧
      (∀ component ∈ link.components, '#' ∉ component.toList) ∧
      (link.fragment ≠ none → '#' ∈ body) := by
  obtain ⟨absent, marked⟩ := cutFragment_facts body
  have inside : '#' ∉ ((Text.cut? '/' (cutFragment body).1).getD ((cutFragment body).1, [])).1 ∧
      '#' ∉ ((Text.cut? '/' (cutFragment body).1).getD ((cutFragment body).1, [])).2 := by
    cases slash : Text.cut? '/' (cutFragment body).1 with
    | none => exact ⟨absent, List.not_mem_nil⟩
    | some pieces =>
        obtain ⟨bundle, path⟩ := pieces
        rw [(Text.cut?_eq_some slash).1] at absent
        simp only [List.mem_append, List.mem_cons, not_or] at absent
        exact ⟨absent.1, absent.2.2⟩
  simp only [ofIdentifierBody] at h
  split at h
  · cases h
  · cases h
    refine ⟨fun bundle same => ?_, fun component found mark => ?_, marked⟩
    · cases same
      rw [String.toList_ofList]
      exact inside.1
    · exact inside.2 (Component.mem_of_mem_cut (mem_of_mem_dropRoot found) mark)

theorem ofIdentifierBody_bundle {text bundle : String} {body : List Char} {link : WrittenLink}
    (h : ofIdentifierBody text body = .ok link) (named : link.bundle = some bundle) :
    bundle ≠ "" ∧ '/' ∉ bundle.toList := by
  have before : '/' ∉ ((Text.cut? '/' (cutFragment body).1).getD ((cutFragment body).1, [])).1 := by
    cases slash : Text.cut? '/' (cutFragment body).1 with
    | none => exact Text.not_mem_of_cut? slash
    | some pieces => exact (Text.cut?_eq_some slash).2
  simp only [ofIdentifierBody] at h
  split at h
  · cases h
  · rename_i filled
    cases h
    cases named
    rw [String.toList_ofList]
    exact ⟨fun none => filled (by simpa using none), before⟩

theorem ofIdentifierBody_isUrl {text : String} {body : List Char} {link : WrittenLink}
    (h : ofIdentifierBody text body = .ok link) : link.isUrl = false := by
  simp only [ofIdentifierBody] at h
  split at h
  · cases h
  · cases h
    rfl

theorem parse_named {raw : String} {link : WrittenLink} (read : parse raw = .ok link)
    (named : link.bundle.isSome = true) :
    ∃ text body, ofIdentifierBody text body = .ok link ∧ ∀ c ∈ body, c ∈ raw.toList := by
  simp only [parse] at read
  split at read
  · cases read
  · split at read
    · rename_i body stripped
      refine ⟨_, body, read, fun c member => ?_⟩
      exact Text.mem_of_mem_trimChars (Text.mem_of_stripStart? stripped member)
    · split at read
      · rw [(text_ofTopicBody read).2] at named
        cases named
      · split at read
        · cases read
          cases named
        · rw [(text_ofPath read).2] at named
          cases named

end WrittenLink

namespace Address

/-- What an identifier consists of between its scheme and its fragment. -/
def location (address : Address) : List Char :=
  address.bundle.toList ++ '/' :: (WrittenLink.documentationRoot.toList ++ '/' ::
    ['/'].intercalate (address.path.map String.toList))

theorem identifier_toList (address : Address) :
    address.identifier.toList =
      "doc://".toList ++ (address.location ++ address.fragmentText.toList) := by
  simp only [identifier, location, String.toList_append, pathText, String.toList_intercalate,
    WrittenLink.topicScheme, List.append_assoc]
  rfl

/-- Below one page, identifiers tell the last components apart. -/
theorem identifier_concat_inj {bundle last last' : String} {above : List String}
    (same : identifier { bundle, path := above ++ [last] } =
      identifier { bundle, path := above ++ [last'] }) : last = last' := by
  have chars := congrArg String.toList same
  simp only [identifier_toList, location, List.map_append, List.map_singleton] at chars
  have location := List.append_cancel_right (List.append_cancel_left chars)
  have behindBundle := (List.cons.inj (List.append_cancel_left location)).2
  have behindRoot := (List.cons.inj (List.append_cancel_left behindBundle)).2
  exact String.toList_inj.mp (Text.intercalate_concat_inj behindRoot)

variable {address : Address}

theorem location_unmarked (bundle : '#' ∉ address.bundle.toList)
    (path : ∀ component ∈ address.path, '#' ∉ component.toList) : '#' ∉ address.location := by
  intro mark
  rcases List.mem_append.mp mark with inBundle | mark
  · exact bundle inBundle
  rcases List.mem_append.mp ((List.mem_cons.mp mark).resolve_left (by decide)) with root | mark
  · exact absurd root (by decide)
  rcases Text.mem_of_mem_intercalate ((List.mem_cons.mp mark).resolve_left (by decide)) with
    slash | ⟨chars, among, inside⟩
  · exact absurd slash (by decide)
  · obtain ⟨component, member, rfl⟩ := List.mem_map.mp among
    exact path component member inside

theorem identifier_fragment {link : WrittenLink} (whole : address.fragment = none)
    (read : WrittenLink.parse address.identifier = .ok link)
    (bundle : link.bundle = some address.bundle) (path : link.components = address.path) :
    link.fragment = none := by
  by_contra fragment
  obtain ⟨text, body, made, inside⟩ := WrittenLink.parse_named read (by rw [bundle]; rfl)
  obtain ⟨noBundle, noPath, marked⟩ := WrittenLink.ofIdentifierBody_unmarked made
  have written := inside '#' (marked fragment)
  simp only [identifier_toList, fragmentText, whole, List.mem_append] at written
  rcases written with scheme | location | nothing
  · exact absurd scheme (by decide)
  · exact location_unmarked (noBundle _ bundle) (path ▸ noPath) location
  · exact absurd nothing (by decide)

end Address

end Concordance
