import Mathlib
import Concordance.Proofs.Link.Parsed
import Concordance.Proofs.Link.RoundTrip

/-! # The grammar of links

Which texts are links, said of their characters alone, and what is left of a path when it is cut
into components: all of it but slashes outside parentheses. What a link keeps of its text is read as
the same link again.
-/

namespace Concordance

namespace Component

variable {depth : Nat} {afterSlash : Bool} {current rest path : List Char}

/-- How a path is divided into components: it consists of pieces with slashes outside parentheses
between them, and the components are those pieces that are not empty. -/
def Divides (path : List Char) (components : List String) : Prop :=
  ∃ pieces : List (List Char), path = ['/'].intercalate pieces ∧
    (∀ piece ∈ pieces.dropLast, depthAfter piece = 0) ∧
    components.map String.toList = pieces.filter (· ≠ [])

theorem Divides.ne_empty {components : List String} (divides : Divides path components) :
    ∀ component ∈ components, component ≠ "" := by
  obtain ⟨pieces, -, -, kept⟩ := divides
  rintro component member rfl
  have there : "".toList ∈ pieces.filter (· ≠ []) := kept ▸ List.mem_map_of_mem member
  simpa using (List.mem_filter.mp there).2

/-- What is still to be read, behind the piece that is being read, consists of pieces that lose
nothing but the slashes between them. The induction is on the rest of the path. -/
theorem cutFrom_pieces (depth : Nat) (afterSlash : Bool) (current rest : List Char)
    (inside : depthAfter current = depth) :
    ∃ pieces : List (List Char), pieces ≠ [] ∧ current ++ rest = ['/'].intercalate pieces ∧
      (∀ piece ∈ pieces.dropLast, depthAfter piece = 0) ∧
      cutFrom depth afterSlash current rest = pieces.filter (· ≠ []) := by
  have emitted (current : List Char) : emit current = [current].filter (· ≠ []) := by
    cases current <;> rfl
  induction rest generalizing depth afterSlash current with
  | nil =>
      exact ⟨[current], List.cons_ne_nil _ _, by simp, fun _ none => (nomatch none), emitted current⟩
  | cons c rest ih =>
      rw [cutFrom]
      split
      · rename_i separates
        obtain ⟨rfl, rfl⟩ : c = '/' ∧ depth = 0 := by simpa using separates
        split
        · rename_i opens
          obtain ⟨⟨-, rfl⟩, -⟩ : (afterSlash = true ∧ current = []) ∧ _ := by
            simpa only [Bool.and_eq_true, List.isEmpty_iff] using opens
          exact ih 0 false ['/'] rfl
        · obtain ⟨pieces, some, whole, closed, kept⟩ := ih 0 true [] rfl
          refine ⟨current :: pieces, List.cons_ne_nil _ _, ?_, ?_, ?_⟩
          · rw [List.intercalate_cons_of_ne_nil some, ← whole]
            simp
          · rw [List.dropLast_cons_of_ne_nil some]
            exact List.forall_mem_cons.mpr ⟨inside, closed⟩
          · rw [kept, emitted, ← List.filter_append, List.singleton_append]
      · have next : depthAfter (current ++ [c]) = parenDepth depth c := by
          rw [depthAfter, List.foldl_append, ← depthAfter, inside]
          rfl
        obtain ⟨pieces, some, whole, closed, kept⟩ := ih _ false _ next
        exact ⟨pieces, some, by rw [← whole]; simp, closed, kept⟩

theorem cut_divides (path : List Char) : Divides path (cut path) := by
  obtain ⟨pieces, -, whole, closed, kept⟩ := cutFrom_pieces 0 false [] path rfl
  refine ⟨pieces, whole, closed, ?_⟩
  rw [cut, List.map_map, ← kept]
  simp [Function.comp_def]

theorem cutFrom_ne_nil (some : current ≠ []) : cutFrom depth afterSlash current rest ≠ [] := by
  induction rest generalizing depth afterSlash current with
  | nil => simp [cutFrom, emit, some]
  | cons c rest ih =>
      rw [cutFrom]
      split
      · split
        · exact ih (List.cons_ne_nil _ _)
        · simp [emit, some]
      · exact ih (by simp)

/-- A path has no components if it is nothing but slashes, and too few for the name of an
operator. -/
theorem cut_eq_nil_iff : cut path = [] ↔ path ∈ [[], ['/'], ['/', '/']] := by
  rw [cut, List.map_eq_nil_iff]
  have named {c : Char} (other : c ≠ '/') (afterSlash : Bool) (rest : List Char) :
      cutFrom 0 afterSlash [] (c :: rest) ≠ [] := by
    rw [cutFrom, if_neg (by simp [other])]
    exact cutFrom_ne_nil (by simp)
  rcases path with _ | ⟨c, path⟩
  · simp [cutFrom, emit]
  by_cases first : c = '/'
  case neg => simp [named first, first]
  subst first
  rw [cutFrom_slash]
  rcases path with _ | ⟨c, path⟩
  · simp [cutFrom, emit]
  by_cases second : c = '/'
  case neg => simp [emit, named second, second]
  subst second
  rcases path with _ | ⟨c, path⟩
  · simp [cutFrom, emit]
  by_cases operator : isOperatorChar c = true
  · have read : cutFrom 0 true [] ('/' :: c :: path) ≠ [] := by
      rw [cutFrom, if_pos (by decide), if_pos (by simpa using operator)]
      exact cutFrom_ne_nil (by simp)
    simp [read]
  · have third : c ≠ '/' := by
      rintro rfl
      exact operator (by decide)
    have read : cutFrom 0 true [] ('/' :: c :: path) = cutFrom 0 true [] (c :: path) := by
      rw [cutFrom, if_pos (by decide), if_neg (by simpa using operator)]
      rfl
    simp [emit, read, named third]

end Component

namespace WrittenLink

variable {t body : List Char} {raw text : String} {link : WrittenLink}

/-- Texts of web addresses: they do not have the scheme of links to pages, and name another scheme
or are mail addresses. -/
def IsWeb (t : List Char) : Prop :=
  ¬ "doc:".toList <+: t ∧ ("://".toList <:+: t ∨ "mailto:".toList <+: t)

instance : DecidablePred IsWeb := fun t =>
  inferInstanceAs (Decidable (¬ "doc:".toList <+: t ∧ ("://".toList <:+: t ∨ "mailto:".toList <+: t)))

/-- The path that a text names a page by: what stands before the first mark of a fragment, without
the scheme and, in an identifier, without the bundle. Web addresses have none. -/
def pathIn (t : List Char) : List Char :=
  if "doc://".toList <+: t then
    (((t.drop "doc://".length).takeWhile (· != '#')).dropWhile (· != '/')).tail
  else if "doc:".toList <+: t then (t.drop "doc:".length).takeWhile (· != '#')
  else if IsWeb t then []
  else t.takeWhile (· != '#')

/-- Texts that are no links. -/
inductive Refused (t : List Char) : Prop where
  | empty (none : t = [])
  /-- An identifier that names no bundle. -/
  | unnamed (rest : List Char) (identifier : t = "doc://".toList ++ rest)
      (start : rest = [] ∨ ['/'] <+: rest ∨ ['#'] <+: rest)
  /-- A link to a page whose path has no component. -/
  | pathless (page : ¬ IsWeb t) (relative : ¬ "doc://".toList <+: t)
      (path : pathIn t ∈ [[], ['/'], ['/', '/']])

/-- The components that the path of a text spells. The path of an identifier may have a root of the
site before them. -/
def Spells (t : List Char) (components : List String) : Prop :=
  ∃ root, Component.Divides (pathIn t) (root ++ components) ∧
    (root = [] ∨ "doc://".toList <+: t ∧ (root = ["documentation"] ∨ root = ["tutorials"]))

theorem cutFragment_fst (s : List Char) : (cutFragment s).1 = s.takeWhile (· != '#') := by
  rw [cutFragment, Text.cut?_eq]
  by_cases marked : '#' ∈ s
  · rw [if_pos marked]
    split <;> simp_all
  · rw [if_neg marked, Text.takeWhile_bne marked]

theorem cutBundle (location : List Char) :
    (Text.cut? '/' location).getD (location, []) =
      (location.takeWhile (· != '/'), (location.dropWhile (· != '/')).tail) := by
  rw [Text.cut?_eq]
  by_cases slash : '/' ∈ location
  · rw [if_pos slash, Option.getD_some]
  · have passed : location.dropWhile (· != '/') = [] :=
      List.dropWhile_eq_nil_iff.mpr fun c member => by
        simpa using fun same : c = '/' => slash (same ▸ member)
    rw [if_neg slash, Option.getD_none, Text.takeWhile_bne slash, passed, List.tail_nil]

/-- The ways in which a text is read. -/
inductive Reads (raw : String) (t : List Char) : Except MalformedLink WrittenLink → Prop where
  | empty (none : t = []) : Reads raw t (.error ⟨raw, .empty⟩)
  | identifier (body : List Char) (scheme : t = "doc://".toList ++ body) :
      Reads raw t (ofIdentifierBody (String.ofList t) body)
  | topic (body : List Char) (relative : ¬ "doc://".toList <+: t) (scheme : t = "doc:".toList ++ body) :
      Reads raw t (ofTopicBody raw (String.ofList t) body)
  | web (web : IsWeb t) : Reads raw t (.ok (ofUrl (String.ofList t)))
  | path (some : t ≠ []) (plain : ¬ "doc:".toList <+: t) (page : ¬ IsWeb t) :
      Reads raw t (ofPath raw (String.ofList t) t)

theorem isUrlText_iff : isUrlText t = true ↔ "://".toList <:+: t ∨ "mailto:".toList <+: t := by
  rw [isUrlText, Bool.or_eq_true, Text.occurs_iff, Text.stripStart?_isSome_iff]

theorem parse_reads (raw : String) : Reads raw (Text.trimChars raw.toList) (parse raw) := by
  rw [parse]
  split
  · rename_i none
    exact .empty (List.isEmpty_iff.mp none)
  rename_i some
  split
  · rename_i body scheme
    exact .identifier body (Text.stripStart?_eq_some_iff.mp scheme)
  rename_i relative
  rw [Text.stripStart?_eq_none_iff] at relative
  split
  · rename_i body scheme
    exact .topic body relative (Text.stripStart?_eq_some_iff.mp scheme)
  rename_i plain
  rw [Text.stripStart?_eq_none_iff] at plain
  split
  · rename_i web
    exact .web ⟨plain, isUrlText_iff.mp web⟩
  · rename_i notWeb
    refine .path (fun none => some (List.isEmpty_iff.mpr none)) plain fun web => ?_
    exact notWeb (isUrlText_iff.mpr web.2)

theorem IsWeb.not_scheme (web : IsWeb t) : ¬ "doc://".toList <+: t := fun scheme =>
  web.1 ((show "doc:".toList <+: "doc://".toList by decide).trans scheme)

theorem pathIn_identifier (body : List Char) :
    pathIn ("doc://".toList ++ body) =
      ((body.takeWhile (· != '#')).dropWhile (· != '/')).tail :=
  if_pos (List.prefix_append _ _)

theorem pathIn_topic (relative : ¬ "doc://".toList <+: "doc:".toList ++ body) :
    pathIn ("doc:".toList ++ body) = body.takeWhile (· != '#') := by
  rw [pathIn, if_neg relative, if_pos (List.prefix_append _ _)]
  rfl

theorem pathIn_web (web : IsWeb t) : pathIn t = [] := by
  rw [pathIn, if_neg web.not_scheme, if_neg web.1, if_pos web]

theorem pathIn_plain (plain : ¬ "doc:".toList <+: t) (page : ¬ IsWeb t) :
    pathIn t = t.takeWhile (· != '#') := by
  have relative : ¬ "doc://".toList <+: t := fun scheme =>
    plain ((show "doc:".toList <+: "doc://".toList by decide).trans scheme)
  rw [pathIn, if_neg relative, if_neg plain, if_neg page]

theorem unnamed_iff : (body.takeWhile (· != '#')).takeWhile (· != '/') = [] ↔
    body = [] ∨ ['/'] <+: body ∨ ['#'] <+: body := by
  rcases body with _ | ⟨c, body⟩
  · simp
  · by_cases mark : c = '#'
    · simp [mark]
    · by_cases slash : c = '/'
      · simp [slash]
      · simp [mark, slash, Ne.symm mark, Ne.symm slash]

theorem ofIdentifierBody_eq (text : String) (body : List Char) :
    ofIdentifierBody text body =
      if body = [] ∨ ['/'] <+: body ∨ ['#'] <+: body then .error ⟨text, .noBundle⟩
      else .ok {
        absolute := true
        bundle := some (String.ofList ((body.takeWhile (· != '#')).takeWhile (· != '/')))
        components := dropRoot (Component.cut (pathIn ("doc://".toList ++ body)))
        fragment := (cutFragment body).2
        text
        form := .topic } := by
  simp only [ofIdentifierBody, cutBundle, cutFragment_fst, List.isEmpty_iff, unnamed_iff,
    pathIn_identifier]

theorem not_error (link : WrittenLink) :
    ¬ ∃ flaw : MalformedLink, (.ok link : Except MalformedLink WrittenLink) = .error flaw := by
  rintro ⟨_, ⟨⟩⟩

theorem ofTopicBody_error_iff : (∃ flaw, ofTopicBody raw text body = .error flaw) ↔
    body.takeWhile (· != '#') ∈ [[], ['/'], ['/', '/']] := by
  simp only [ofTopicBody, cutFragment_fst, List.isEmpty_iff, Component.cut_eq_nil_iff]
  split
  · rename_i pathless
    exact iff_of_true ⟨_, rfl⟩ pathless
  · rename_i path
    exact iff_of_false (not_error _) path

theorem ofPath_error_iff : (∃ flaw, ofPath raw text body = .error flaw) ↔
    body.takeWhile (· != '#') ∈ [[], ['/'], ['/', '/']] := by
  simp only [ofPath, cutFragment_fst, List.isEmpty_iff, Component.cut_eq_nil_iff]
  split
  · rename_i pathless
    exact iff_of_true ⟨_, rfl⟩ pathless
  · rename_i path
    exact iff_of_false (not_error _) path

theorem components_ofTopicBody (read : ofTopicBody raw text body = .ok link) :
    link.components = Component.cut (body.takeWhile (· != '#')) := by
  simp only [ofTopicBody, cutFragment_fst] at read
  split at read
  · cases read
  · cases read
    rfl

theorem components_ofPath (read : ofPath raw text body = .ok link) :
    link.components = Component.cut (body.takeWhile (· != '#')) := by
  simp only [ofPath, cutFragment_fst] at read
  split at read
  · cases read
  · cases read
    rfl

theorem refused_page_iff (page : ¬ IsWeb t) (relative : ¬ "doc://".toList <+: t) :
    Refused t ↔ pathIn t ∈ [[], ['/'], ['/', '/']] := by
  refine ⟨fun refused => ?_, .pathless page relative⟩
  cases refused with
  | empty none =>
      rw [none]
      decide
  | unnamed rest identifier => exact absurd (identifier ▸ List.prefix_append _ _) relative
  | pathless _ _ path => exact path

theorem Reads.error_iff {result : Except MalformedLink WrittenLink} (reads : Reads raw t result) :
    (∃ flaw, result = .error flaw) ↔ Refused t := by
  cases reads with
  | empty none => exact iff_of_true ⟨_, rfl⟩ (.empty none)
  | identifier body scheme =>
      rw [ofIdentifierBody_eq]
      split
      · rename_i start
        exact iff_of_true ⟨_, rfl⟩ (.unnamed body scheme start)
      · rename_i named
        refine iff_of_false (not_error _) fun refused => ?_
        cases refused with
        | empty none => simp [none] at scheme
        | unnamed rest identifier start =>
            rw [scheme] at identifier
            exact named (List.append_cancel_left identifier ▸ start)
        | pathless _ relative => exact relative (scheme ▸ List.prefix_append _ _)
  | topic body relative scheme =>
      subst scheme
      have page : ¬ IsWeb ("doc:".toList ++ body) := fun web => web.1 (List.prefix_append _ _)
      rw [ofTopicBody_error_iff, refused_page_iff page relative, pathIn_topic relative]
  | web web =>
      refine iff_of_false (not_error _) fun refused => ?_
      cases refused with
      | empty none =>
          rw [none] at web
          revert web
          decide
      | unnamed rest identifier =>
          exact web.not_scheme (identifier ▸ List.prefix_append _ _)
      | pathless page => exact page web
  | path some plain page =>
      have relative : ¬ "doc://".toList <+: t := fun scheme =>
        plain ((show "doc:".toList <+: "doc://".toList by decide).trans scheme)
      rw [ofPath_error_iff, refused_page_iff page relative, pathIn_plain plain page]

theorem exists_root (components : List String) :
    ∃ root, components = root ++ dropRoot components ∧
      (root = [] ∨ root = ["documentation"] ∨ root = ["tutorials"]) := by
  cases components with
  | nil => exact ⟨[], rfl, .inl rfl⟩
  | cons first rest =>
      rw [dropRoot]
      split
      · rename_i isRoot
        refine ⟨[first], rfl, .inr ?_⟩
        simpa [documentationRoot, tutorialsRoot] using isRoot
      · exact ⟨[], rfl, .inl rfl⟩

theorem Reads.spells (reads : Reads raw t (.ok link)) : Spells t link.components := by
  generalize same : Except.ok link = result at reads
  cases reads with
  | empty none => cases same
  | identifier body scheme =>
      rw [ofIdentifierBody_eq] at same
      split at same
      · cases same
      · cases same
        subst scheme
        obtain ⟨root, whole, only⟩ :=
          exists_root (Component.cut (pathIn ("doc://".toList ++ body)))
        refine ⟨root, whole ▸ Component.cut_divides _, ?_⟩
        exact only.imp_right fun root => ⟨List.prefix_append _ _, root⟩
  | topic body relative scheme =>
      subst scheme
      refine ⟨[], ?_, .inl rfl⟩
      rw [List.nil_append, components_ofTopicBody same.symm, pathIn_topic relative]
      exact Component.cut_divides _
  | web web =>
      cases same
      exact ⟨[], ⟨[[]], pathIn_web web, nofun, rfl⟩, .inl rfl⟩
  | path some plain page =>
      refine ⟨[], ?_, .inl rfl⟩
      rw [List.nil_append, components_ofPath same.symm, pathIn_plain plain page]
      exact Component.cut_divides _

/-- The grammar of links. A text is refused exactly if, without the blanks around it, it is empty, an
identifier without a bundle, or a link to a page without a component in its path. The components of
a link are not empty, and are all of its path but slashes outside parentheses and a root of an
identifier. The text that the link keeps is read as the same link. -/
theorem parse_grammar (raw : String) :
    ((∃ flaw, parse raw = .error flaw) ↔ Refused (Text.trimChars raw.toList)) ∧
      ∀ link, parse raw = .ok link →
        (∀ component ∈ link.components, component ≠ "") ∧
          Spells (Text.trimChars raw.toList) link.components ∧ parse link.text = .ok link := by
  have reads := parse_reads raw
  refine ⟨reads.error_iff, fun link read => ?_⟩
  rw [read] at reads
  obtain ⟨root, divides, _⟩ := reads.spells
  have again : Text.trimChars raw.toList = Text.trimChars link.text.toList := by
    rw [(parse_facts read).1, String.toList_ofList, Text.trimChars_trimChars]
  exact ⟨fun component member => divides.ne_empty component (List.mem_append_right _ member),
    reads.spells, parse_eq_of_trimmed again read⟩

theorem parse_grammar_operator :
    let raw := " doc://com.example.MyKit/documentation/MyKit/Ratio//(_:_:)/over(a/b:)#Use "
    let text := "doc://com.example.MyKit/documentation/MyKit/Ratio//(_:_:)/over(a/b:)#Use"
    let link : WrittenLink :=
      ⟨true, some "com.example.MyKit", ["MyKit", "Ratio", "/(_:_:)", "over(a/b:)"], some "Use",
        text, .topic⟩
    parse raw = .ok link ∧ ¬ Refused text.toList ∧
      (∀ component ∈ link.components, component ≠ "") ∧ Spells text.toList link.components ∧
      parse link.text = .ok link := by
  intro raw text link
  have read : parse raw = .ok link := by decide +kernel
  have trimmed : Text.trimChars raw.toList = text.toList := by decide +kernel
  obtain ⟨refused, accepted⟩ := parse_grammar raw
  rw [trimmed] at refused accepted
  refine ⟨read, fun none => ?_, accepted link read⟩
  obtain ⟨flaw, error⟩ := refused.mpr none
  rw [read] at error
  cases error

end WrittenLink

end Concordance
