import Mathlib
import Concordance.Link.Component

/-! # Readings of a component

A component is read as a name alone, or split into a name and a suffix at a hyphen
that stands in no brackets. Whichever split is taken, the characters are those of
the component. Behind a name that closes its brackets, a suffix made of words is split
off from the right, word by word.
-/

namespace Concordance.Component

/-- How deep in brackets a text ends. -/
def endDepth (s : List Char) : Nat :=
  s.foldl bracketDepth 0

theorem mem_hyphenCuts {depth : Nat} {before rest : List Char} {parts : List Char × List Char} :
    parts ∈ hyphenCuts depth before rest ↔
      ∃ passed, rest = passed ++ '-' :: parts.2 ∧ parts.1 = before ++ passed ∧ parts.1 ≠ [] ∧
        passed.foldl bracketDepth depth = 0 := by
  induction rest generalizing depth before with
  | nil => simp [hyphenCuts]
  | cons c rest ih =>
      -- A cut at this character, or one that passes it.
      have cases_mem : parts ∈ hyphenCuts depth before (c :: rest) ↔
          (c = '-' ∧ depth = 0 ∧ before ≠ [] ∧ parts = (before, rest)) ∨
            parts ∈ hyphenCuts (bracketDepth depth c) (before ++ [c]) rest := by
        simp only [hyphenCuts]
        split <;> simp_all
      rw [cases_mem, ih]
      constructor
      · rintro (⟨rfl, outside, some, rfl⟩ | ⟨passed, whole, first, some, outside⟩)
        · exact ⟨[], rfl, (List.append_nil _).symm, some, outside⟩
        · exact ⟨c :: passed, by rw [whole]; rfl, by rw [first]; simp, some, outside⟩
      · rintro ⟨passed, whole, first, some, outside⟩
        cases passed with
        | nil =>
            obtain ⟨rfl, rfl⟩ := List.cons.inj whole
            rw [List.append_nil] at first
            exact .inl ⟨rfl, outside, first ▸ some, Prod.ext first rfl⟩
        | cons d passed =>
            obtain ⟨rfl, rfl⟩ := List.cons.inj whole
            exact .inr ⟨passed, rfl, by rw [first]; simp, some, outside⟩

/-- A reading takes the whole component for a name, or splits it at a hyphen outside brackets.
Further hyphens after that one belong to neither part. -/
theorem mem_readings {component : String} {reading : Reading} :
    reading ∈ readings component ↔
      reading = (component, none) ∨
        ∃ rest, component.toList = reading.1.toList ++ '-' :: rest ∧ reading.1.toList ≠ [] ∧
          endDepth reading.1.toList = 0 ∧ isSuffix (rest.dropWhile (· == '-')) = true ∧
          reading.2 = some (String.ofList (rest.dropWhile (· == '-'))) := by
  rw [readings, List.mem_cons, List.mem_filterMap]
  refine or_congr_right ?_
  constructor
  · rintro ⟨parts, inside, made⟩
    obtain ⟨passed, whole, rfl, some, outside⟩ := mem_hyphenCuts.mp (List.mem_reverse.mp inside)
    simp only [readingOfCut?] at made
    split at made
    · rename_i suffix
      cases made
      refine ⟨parts.2, ?_, ?_, ?_, suffix, rfl⟩ <;> rw [String.toList_ofList]
      · exact whole
      · exact some
      · exact outside
    · cases made
  · rintro ⟨rest, whole, some, outside, suffix, read⟩
    refine ⟨(reading.1.toList, rest), ?_, ?_⟩
    · exact List.mem_reverse.mpr (mem_hyphenCuts.mpr ⟨reading.1.toList, whole, rfl, some, outside⟩)
    · rw [readingOfCut?, if_pos suffix, String.ofList_toList, ← read]

theorem dropWhile_hyphen {s : List Char} (clean : s.head? ≠ some '-') :
    s.dropWhile (· == '-') = s := by
  cases s with
  | nil => rfl
  | cons c s =>
      exact List.dropWhile_cons_of_neg fun hyphen => clean (congrArg some (eq_of_beq hyphen))

/-- A reading of a name with a suffix that takes the name for its own stands outside brackets at its
end, and takes the suffix, if that does not begin with a hyphen. -/
theorem suffix_of_mem_readings {name suffix : String} {reading : Reading}
    (clean : suffix.toList.head? ≠ some '-')
    (member : reading ∈ readings (name ++ "-" ++ suffix)) (same : reading.1 = name) :
    endDepth name.toList = 0 ∧ reading.2 = some suffix := by
  have whole : (name ++ "-" ++ suffix).toList = name.toList ++ '-' :: suffix.toList := by
    simp [String.toList_append]
  rcases mem_readings.mp member with plain | ⟨rest, split, _, outside, _, read⟩
  · have sizes := congrArg (fun s => s.toList.length) (same.symm.trans (congrArg Prod.fst plain))
    simp only [whole, List.length_append, List.length_cons] at sizes
    omega
  · rw [whole, same] at split
    have after : suffix.toList = rest := (List.cons.inj (List.append_cancel_left split)).2
    have kept : rest.dropWhile (· == '-') = rest := dropWhile_hyphen (after ▸ clean)
    rw [read, kept, ← after, String.ofList_toList]
    exact ⟨same ▸ outside, rfl⟩

section Words

variable {s t : List Char} {name word kind hash : String}

/-- The texts that suffixes are made of: letters and digits, with dots between them. -/
structure IsWord (s : List Char) : Prop where
  long : s ≠ []
  plain : ∀ c ∈ s, c.isAlphanum = true ∨ c = '.'

theorem IsWord.hyphen_not_mem (word : IsWord s) : '-' ∉ s := fun member => by
  rcases word.plain '-' member with letter | dot
  · exact absurd letter (by decide)
  · exact absurd dot (by decide)

theorem IsWord.isSuffixChar (word : IsWord s) : ∀ c ∈ s, isSuffixChar c = true := by
  intro c member
  rcases word.plain c member with letter | dot
  · simp [Component.isSuffixChar, letter]
  · simp [Component.isSuffixChar, dot]

theorem IsWord.foldl_bracketDepth (word : IsWord s) (depth : Nat) :
    s.foldl bracketDepth depth = depth := by
  have each : ∀ c ∈ s, bracketDepth depth c = depth := by
    intro c member
    have other (bracket : Char) (not : ¬ (bracket.isAlphanum = true ∨ bracket = '.')) :
        c ≠ bracket := fun same => not (same ▸ word.plain c member)
    have opens : c ∉ ['(', '<', '['] := by
      simp [other '(' (by decide), other '<' (by decide), other '[' (by decide)]
    have closes : c ∉ [')', '>', ']'] := by
      simp [other ')' (by decide), other '>' (by decide), other ']' (by decide)]
    rw [bracketDepth, if_neg (by simpa using opens), if_neg (by simpa using closes)]
  clear word
  induction s with
  | nil => rfl
  | cons c s ih =>
      rw [List.forall_mem_cons] at each
      rw [List.foldl_cons, each.1, ih each.2]

theorem isSuffix_of_ends (first : s.head? ≠ some '-') (last : s.getLast? ≠ some '-')
    (long : s ≠ []) (all : ∀ c ∈ s, isSuffixChar c = true) : isSuffix s = true := by
  simp only [isSuffix, Bool.and_eq_true, Bool.not_eq_true', List.isEmpty_eq_false_iff, bne_iff_ne,
    List.all_eq_true]
  exact ⟨⟨⟨long, first⟩, last⟩, all⟩

theorem IsWord.isSuffix (word : IsWord s) : isSuffix s = true :=
  isSuffix_of_ends (fun first => word.hyphen_not_mem (List.mem_of_head? first))
    (fun last => word.hyphen_not_mem (List.mem_of_getLast? last)) word.long word.isSuffixChar

theorem IsWord.isSuffix_append (one : IsWord s) (other : IsWord t) :
    Component.isSuffix (s ++ '-' :: t) = true := by
  refine isSuffix_of_ends ?_ ?_ (List.append_ne_nil_of_left_ne_nil one.long _) ?_
  · rw [List.head?_append_of_ne_nil _ one.long]
    exact fun first => one.hyphen_not_mem (List.mem_of_head? first)
  · rw [List.getLast?_append_of_ne_nil _ (List.cons_ne_nil _ _), List.getLast?_cons,
      List.getLast?_eq_some_getLast other.long, Option.getD_some]
    exact fun last => other.hyphen_not_mem (Option.some.inj last ▸ List.getLast_mem other.long)
  · intro c member
    rcases List.mem_append.mp member with before | after
    · exact one.isSuffixChar c before
    · rcases List.mem_cons.mp after with rfl | after
      · decide
      · exact other.isSuffixChar c after

theorem hyphenCuts_append (depth : Nat) (before s t : List Char) :
    hyphenCuts depth before (s ++ t) =
      (hyphenCuts depth before s).map (fun cut => (cut.1, cut.2 ++ t)) ++
        hyphenCuts (s.foldl bracketDepth depth) (before ++ s) t := by
  induction s generalizing depth before with
  | nil => simp [hyphenCuts]
  | cons c s ih =>
      simp only [List.cons_append, hyphenCuts, ih, List.foldl_cons, List.append_assoc,
        List.nil_append]
      split <;> rfl

theorem hyphenCuts_of_not_mem (none : '-' ∉ s) (depth : Nat) (before : List Char) :
    hyphenCuts depth before s = [] := by
  rw [List.eq_nil_iff_forall_not_mem]
  intro parts member
  obtain ⟨passed, whole, _⟩ := mem_hyphenCuts.mp member
  exact none (whole ▸ List.mem_append_right _ List.mem_cons_self)

theorem hyphenCuts_hyphen (long : s ≠ []) :
    hyphenCuts 0 s ('-' :: t) = (s, t) :: hyphenCuts 0 (s ++ ['-']) t := by
  have some : (!s.isEmpty) = true := by simpa using long
  simp [hyphenCuts, some, bracketDepth]

theorem readingOfCut?_eq {before : List Char} (suffix : isSuffix s = true) :
    readingOfCut? (before, s) = some (String.ofList before, some (String.ofList s)) := by
  have clean : s.head? ≠ some '-' := by
    simp only [isSuffix, Bool.and_eq_true, bne_iff_ne] at suffix
    exact suffix.1.1.2
  simp [readingOfCut?, dropWhile_hyphen clean, suffix]

/-- A word behind a name and a hyphen is read as a suffix before anything else is split. -/
theorem readings_word (long : name ≠ "") (closed : endDepth name.toList = 0)
    (word : IsWord hash.toList) :
    ∃ more, readings (name ++ "-" ++ hash) =
      (name ++ "-" ++ hash, none) :: (name, some hash) :: more := by
  have whole : (name ++ "-" ++ hash).toList = name.toList ++ '-' :: hash.toList := by
    simp [String.toList_append]
  have some : name.toList ≠ [] := by simpa using long
  rw [readings, whole, hyphenCuts_append, List.nil_append]
  rw [endDepth] at closed
  rw [closed, hyphenCuts_hyphen some, hyphenCuts_of_not_mem word.hyphen_not_mem,
    List.reverse_append, List.reverse_singleton, List.singleton_append, List.filterMap_cons,
    readingOfCut?_eq word.isSuffix, String.ofList_toList, String.ofList_toList]
  exact ⟨_, rfl⟩

/-- Of two words behind a name, the last alone is read as a suffix first, and both next. -/
theorem readings_words (long : name ≠ "") (closed : endDepth name.toList = 0)
    (one : IsWord kind.toList) (other : IsWord hash.toList) :
    ∃ more, readings (name ++ "-" ++ kind ++ "-" ++ hash) =
      (name ++ "-" ++ kind ++ "-" ++ hash, none) :: (name ++ "-" ++ kind, some hash) ::
        (name, some (kind ++ "-" ++ hash)) :: more := by
  have whole : (name ++ "-" ++ kind ++ "-" ++ hash).toList =
      name.toList ++ '-' :: (kind.toList ++ '-' :: hash.toList) := by
    simp [String.toList_append]
  have some : name.toList ≠ [] := by simpa using long
  have first : String.ofList (name.toList ++ ['-'] ++ kind.toList) = name ++ "-" ++ kind :=
    String.toList_injective (by simp [String.toList_append])
  have both : String.ofList (kind.toList ++ '-' :: hash.toList) = kind ++ "-" ++ hash :=
    String.toList_injective (by simp [String.toList_append])
  rw [readings, whole, hyphenCuts_append, List.nil_append]
  rw [endDepth] at closed
  rw [closed, hyphenCuts_hyphen some, hyphenCuts_append, one.foldl_bracketDepth,
    hyphenCuts_of_not_mem one.hyphen_not_mem, List.map_nil, List.nil_append,
    hyphenCuts_hyphen (by simp), hyphenCuts_of_not_mem other.hyphen_not_mem]
  simp only [List.reverse_append, List.reverse_cons, List.reverse_nil, List.nil_append,
    List.cons_append, List.filterMap_cons, readingOfCut?_eq other.isSuffix,
    readingOfCut?_eq (one.isSuffix_append other), first, both, String.ofList_toList]
  exact ⟨_, rfl⟩

end Words

end Concordance.Component
