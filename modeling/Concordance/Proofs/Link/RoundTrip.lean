import Mathlib
import Concordance.Proofs.Link.Identifier
import Concordance.Proofs.Text.Slug

/-! # Identifiers that read back

An identifier joins the components of a path with slashes, and reading it has to find
the borders again. It does if parentheses close within each component, and a slash
outside of them only opens the name of an operator.
-/

namespace Concordance

theorem Text.getLast?_intercalate {mark last : List Char} {pieces : List (List Char)}
    (ends : pieces.getLast? = some last) (some : last ≠ []) :
    (mark.intercalate pieces).getLast? = last.getLast? := by
  induction pieces with
  | nil => cases ends
  | cons piece pieces ih =>
      cases pieces with
      | nil =>
          obtain rfl : piece = last := Option.some.inj ends
          rw [List.intercalate_singleton]
      | cons next pieces =>
          have later := ih (by rwa [List.getLast?_cons_cons] at ends)
          rw [List.intercalate_cons_cons, List.getLast?_append, later,
            List.getLast?_eq_some_getLast some, Option.some_or]

namespace Component

/-- How deep in parentheses a text leaves what follows it. -/
def depthAfter (s : List Char) : Nat := s.foldl parenDepth 0

/-- Components that a path keeps apart from their neighbours. -/
structure Separable (s : List Char) : Prop where
  some : s ≠ []
  unmarked : '#' ∉ s
  closed : depthAfter s = 0
  /-- A slash outside parentheses comes first, and opens the name of an operator. -/
  slashes : ∀ i < s.length, s[i]? = .some '/' → depthAfter (s.take i) = 0 →
    i = 0 ∧ s[1]?.any isOperatorChar = true

instance : DecidablePred Separable := fun s =>
  decidable_of_iff (s ≠ [] ∧ '#' ∉ s ∧ depthAfter s = 0 ∧
      ∀ i < s.length, s[i]? = some '/' → depthAfter (s.take i) = 0 →
        i = 0 ∧ s[1]?.any isOperatorChar = true)
    ⟨fun ⟨filled, unmarked, closed, slashes⟩ => ⟨filled, unmarked, closed, slashes⟩,
      fun ⟨filled, unmarked, closed, slashes⟩ => ⟨filled, unmarked, closed, slashes⟩⟩

variable {depth : Nat} {current rest s : List Char}

theorem cutFrom_append
    (inside : ∀ i < s.length, s[i]? = some '/' → (s.take i).foldl parenDepth depth ≠ 0) :
    cutFrom depth false current (s ++ rest) =
      cutFrom (s.foldl parenDepth depth) false (current ++ s) rest := by
  induction s generalizing depth current with
  | nil => simp
  | cons c s ih =>
      have kept : (c == '/' && depth == 0) = false := by
        by_contra separates
        simp only [Bool.not_eq_false, Bool.and_eq_true, beq_iff_eq] at separates
        exact inside 0 (by simp) (by simp [separates.1]) separates.2
      have later : cutFrom (parenDepth depth c) false (current ++ [c]) (s ++ rest) =
          cutFrom (s.foldl parenDepth (parenDepth depth c)) false (current ++ [c] ++ s) rest :=
        ih fun i less slash => inside (i + 1) (by simpa using less) (by simpa using slash)
      simp only [List.cons_append, cutFrom, kept, Bool.false_eq_true, if_false, later,
        List.foldl_cons, List.append_assoc, List.cons_append, List.nil_append]

theorem cutFrom_slash :
    cutFrom 0 false current ('/' :: rest) = emit current ++ cutFrom 0 true [] rest := by
  simp [cutFrom]

theorem Separable.cutFrom (separable : Separable s) :
    cutFrom 0 true [] (s ++ rest) = Component.cutFrom 0 false s rest := by
  obtain ⟨some, -, closed, slashes⟩ := separable
  cases s with
  | nil => exact absurd rfl some
  | cons c s =>
      have inside : ∀ i < s.length, s[i]? = .some '/' →
          (s.take i).foldl parenDepth (parenDepth 0 c) ≠ 0 :=
        fun i less there outside =>
          absurd (slashes (i + 1) (by simpa using less) there outside).1 (Nat.succ_ne_zero i)
      have read : Component.cutFrom 0 true [] (c :: (s ++ rest)) =
          Component.cutFrom (parenDepth 0 c) false [c] (s ++ rest) := by
        by_cases slash : c = '/'
        · subst slash
          have operator : (s ++ rest).head?.any isOperatorChar = true := by
            obtain ⟨-, opens⟩ := slashes 0 (by simp) rfl rfl
            cases s with
            | nil => simp at opens
            | cons d s => exact opens
          rw [Component.cutFrom, if_pos (by decide), if_pos (by simpa using operator)]
          rfl
        · simp [Component.cutFrom, slash]
      rw [List.cons_append, read, cutFrom_append inside]
      exact congrArg (Component.cutFrom · false (c :: s) rest) closed

/-- The components of a path are read back behind a slash. -/
theorem cutFrom_intercalate {components : List (List Char)}
    (separable : ∀ s ∈ components, Separable s) :
    cutFrom 0 true [] (['/'].intercalate components) = components := by
  induction components with
  | nil => rfl
  | cons s components ih =>
      have first := separable s List.mem_cons_self
      have own : emit s = [s] := by simp [emit, first.some]
      cases components with
      | nil =>
          rw [List.intercalate_singleton, ← List.append_nil s, first.cutFrom, List.append_nil]
          exact own
      | cons t components =>
          rw [List.intercalate_cons_cons, List.append_assoc, first.cutFrom, List.singleton_append,
            cutFrom_slash, own, ih fun u member => separable u (List.mem_cons_of_mem _ member)]
          rfl

theorem cut_root (rest : List Char) :
    cut (WrittenLink.documentationRoot.toList ++ '/' :: rest) =
      WrittenLink.documentationRoot :: (cutFrom 0 true [] rest).map String.ofList := by
  have root : cutFrom 0 false [] (WrittenLink.documentationRoot.toList ++ '/' :: rest) =
      WrittenLink.documentationRoot.toList :: cutFrom 0 true [] rest := by
    have closed : WrittenLink.documentationRoot.toList.foldl parenDepth 0 = 0 := by decide
    rw [cutFrom_append (by decide), closed, cutFrom_slash]
    rfl
  rw [cut, root, List.map_cons, String.ofList_toList]

end Component

theorem WrittenLink.ofIdentifierBody_root {bundle : String} (named : bundle ≠ "")
    (slash : '/' ∉ bundle.toList) {body rest : List Char} {fragment : Option String}
    (cut : cutFragment body =
      (bundle.toList ++ '/' :: (documentationRoot.toList ++ '/' :: rest), fragment))
    (text : String) :
    ofIdentifierBody text body = .ok {
      absolute := true
      bundle := some bundle
      components := (Component.cutFrom 0 true [] rest).map String.ofList
      fragment, text
      form := .topic } := by
  have filled : bundle.toList.isEmpty = false := by simpa using named
  simp only [ofIdentifierBody, cut, Text.cut?_append slash, Option.getD_some, filled,
    Bool.false_eq_true, if_false, Component.cut_root, dropRoot, beq_self_eq_true, Bool.true_or,
    if_true, String.ofList_toList]

namespace Address

/-- Addresses that their identifiers spell out so that they can be read back. -/
structure Spellable (address : Address) : Prop where
  named : address.bundle ≠ ""
  bundle_slash : '/' ∉ address.bundle.toList
  bundle_mark : '#' ∉ address.bundle.toList
  fragment : ∀ fragment, address.fragment = some fragment →
    fragment ≠ "" ∧ Text.slug fragment = fragment
  components : ∀ component ∈ address.path, Component.Separable component.toList
  /-- Without a fragment the identifier ends with the last component, which is not to end blank. -/
  ending : address.fragment = none → ∀ component, address.path.getLast? = some component →
    ∀ c, component.toList.getLast? = some c → Text.isBlank c = false

variable {address : Address}

theorem Spellable.last (spellable : address.Spellable) {c : Char}
    (last : address.identifier.toList.getLast? = some c) : Text.isBlank c = false := by
  rw [identifier_toList, ← List.append_assoc, List.getLast?_append] at last
  cases marked : address.fragment with
  | some fragment =>
      obtain ⟨some, slug⟩ := spellable.fragment fragment marked
      have chars : fragment.toList ≠ [] := String.toList_eq_nil_iff.not.mpr some
      have text : address.fragmentText.toList = '#' :: fragment.toList := by
        simp [fragmentText, marked, String.toList_append]
      rw [text, List.getLast?_cons, Option.some_or, List.getLast?_eq_some_getLast chars] at last
      cases last
      refine Text.not_isBlank_of_mem_slug (s := fragment) ?_
      rw [slug]
      exact List.getLast_mem chars
  | none =>
      have text : address.fragmentText.toList = [] := by simp [fragmentText, marked]
      rw [text, location, List.getLast?_nil, Option.none_or, List.getLast?_append,
        List.getLast?_append_cons, List.getLast?_cons, List.getLast?_append_cons,
        List.getLast?_cons, Option.getD_some, Option.some_or] at last
      cases final : address.path.getLast? with
      | none =>
          rw [List.getLast?_eq_none_iff.mp final] at last
          cases last
          decide
      | some component =>
          have separable := spellable.components component (List.mem_of_getLast? final)
          have ends : (address.path.map String.toList).getLast? = some component.toList := by
            rw [List.getLast?_map, final, Option.map_some]
          rw [Text.getLast?_intercalate ends separable.some] at last
          rw [List.getLast?_eq_some_getLast separable.some] at last
          exact spellable.ending marked component final c
            ((List.getLast?_eq_some_getLast separable.some).trans last)

theorem Spellable.unmarked (spellable : address.Spellable) : '#' ∉ address.location :=
  location_unmarked spellable.bundle_mark fun component member =>
    (spellable.components component member).unmarked

theorem Spellable.cutFragment (spellable : address.Spellable) {location : List Char}
    (unmarked : '#' ∉ location) :
    WrittenLink.cutFragment (location ++ address.fragmentText.toList) =
      (location, address.fragment) := by
  cases marked : address.fragment with
  | none => simp [fragmentText, marked, WrittenLink.cutFragment, Text.cut?_eq_none unmarked]
  | some fragment =>
      have some : fragment.toList ≠ [] :=
        String.toList_eq_nil_iff.not.mpr (spellable.fragment fragment marked).1
      have text : address.fragmentText.toList = '#' :: fragment.toList := by
        simp [fragmentText, marked, String.toList_append]
      rw [text, WrittenLink.cutFragment, Text.cut?_append unmarked]
      cases chars : fragment.toList with
      | nil => exact absurd chars some
      | cons c rest => simp [← chars]

theorem Spellable.parse (spellable : address.Spellable) :
    WrittenLink.parse address.identifier = .ok {
      absolute := true
      bundle := some address.bundle
      components := address.path
      fragment := address.fragment
      text := address.identifier
      form := .topic } := by
  have whole := identifier_toList address
  have trimmed : Text.trimChars address.identifier.toList = address.identifier.toList := by
    refine Text.trimChars_eq_self (fun c first => ?_) fun c last => spellable.last last
    rw [whole] at first
    cases first
    decide
  have some : address.identifier.toList.isEmpty = false := by
    rw [whole]
    rfl
  have scheme := Text.stripStart?_append "doc://".toList
    (address.location ++ address.fragmentText.toList)
  rw [← whole] at scheme
  have path := Component.cutFrom_intercalate (List.forall_mem_map.mpr spellable.components)
  have body := WrittenLink.ofIdentifierBody_root spellable.named spellable.bundle_slash
    (spellable.cutFragment spellable.unmarked) address.identifier
  simp only [path, List.map_map, Function.comp_def, String.ofList_toList, List.map_id'] at body
  simp only [WrittenLink.parse, trimmed, some, scheme, Bool.false_eq_true, if_false,
    String.ofList_toList]
  exact body

theorem Spellable.ofIdentifier (spellable : address.Spellable) :
    ofIdentifier address.identifier = .ok address := by
  rw [Address.ofIdentifier, spellable.parse]
  cases marked : address.fragment with
  | none => exact congrArg Except.ok (congrArg (Address.mk address.bundle address.path) marked.symm)
  | some fragment =>
      obtain ⟨some, slug⟩ := spellable.fragment fragment marked
      have none : (fragment == "") = false := by simpa using some
      simp [bind, Except.bind, withFragment, slug, none, ← marked]

/-- An identifier that spells its address out is read as this address, and no other address that
is spelled out has it. -/
theorem identifier_roundTrip (spellable : address.Spellable) :
    Address.ofIdentifier address.identifier = .ok address ∧
      ∀ other : Address, other.Spellable → other.identifier = address.identifier →
        other = address := by
  refine ⟨spellable.ofIdentifier, fun other spellable' same => ?_⟩
  have read := spellable'.ofIdentifier
  rw [same, spellable.ofIdentifier] at read
  exact (Except.ok.inj read).symm

theorem identifier_roundTrip_operators :
    let address : Address := {
      bundle := "com.example.MyKit"
      path := ["Kit", "Ratio", "/(_:_:)", "over(a/b:)"]
      fragment := some "see-also" }
    address.identifier =
        "doc://com.example.MyKit/documentation/Kit/Ratio//(_:_:)/over(a/b:)#see-also" ∧
      Address.ofIdentifier address.identifier = .ok address ∧
      ∀ other : Address, other.Spellable → other.identifier = address.identifier →
        other = address := by
  intro address
  have spellable : address.Spellable := {
    named := by decide
    bundle_slash := by decide
    bundle_mark := by decide
    fragment := by
      rintro fragment same
      cases same
      decide +kernel
    components := by decide
    ending := fun none => by cases none }
  exact ⟨by decide, identifier_roundTrip spellable⟩

end Address

end Concordance
