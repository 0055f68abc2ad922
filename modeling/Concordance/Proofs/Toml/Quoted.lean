import Mathlib
import Concordance.Toml.Quoted
import Concordance.Toml.Scalar

/-! # TOML strings are read as they were written

Whatever form a text is written in, the quotes that close it are told apart from those
in it: on one line none of these stands without an escape, and over several lines no
more than two in a row, so that with the three that close the text they make a run of
five at most.
-/

namespace Concordance.Toml

section Quotes

variable {quote : Char} {s rest : List Char}

theorem closingQuotes?_all (all : ∀ c ∈ s, c = quote)
    (few : (s.takeWhile (· == quote)).length ≤ 2) (ends : rest.head? ≠ some quote) :
    closingQuotes? quote (s ++ (List.replicate 3 quote ++ rest)) = some (s, rest) := by
  rw [List.takeWhile_eq_self_iff.mpr (by simpa using all)] at few
  obtain ⟨n, rfl⟩ : ∃ n, s = List.replicate n quote := ⟨_, List.eq_replicate_iff.mpr ⟨rfl, all⟩⟩
  have after : rest.takeWhile (· == quote) = [] := by
    cases rest with
    | nil => rfl
    | cons c rest => simpa using ends
  have run : (List.replicate (n + 3) quote ++ rest).takeWhile (· == quote) =
      List.replicate (n + 3) quote := by
    rw [List.takeWhile_append_of_pos (by simp), after, List.append_nil]
  rw [List.length_replicate] at few
  rw [← List.append_assoc, List.replicate_append_replicate]
  have inside : min (n + 3 - 3) 2 = n := by omega
  simp only [closingQuotes?, run, List.length_replicate, inside]
  rw [if_neg (by omega), List.drop_left' List.length_replicate]

/-- A run of quotes that is too short does not close a text. -/
theorem closingQuotes?_none (other : ∃ c ∈ s, c ≠ quote)
    (few : (s.takeWhile (· == quote)).length ≤ 2) (rest : List Char) :
    closingQuotes? quote (s ++ rest) = none := by
  have run : (s ++ rest).takeWhile (· == quote) = s.takeWhile (· == quote) := by
    rw [List.takeWhile_append, if_neg]
    intro whole
    obtain ⟨c, member, different⟩ := other
    have all := List.takeWhile_eq_self_iff.mp ((List.takeWhile_sublist _).eq_of_length whole)
    exact different (by simpa using all c member)
  rw [closingQuotes?, run, if_pos (by omega)]

end Quotes

section Basic

variable {c : Char} {s rest : List Char} {multi : Bool} {fuel : Nat}

/-- Put a character before what was read of a string. -/
def withChar (c : Char) : Option (List Char × List Char) → Option (List Char × List Char) :=
  Option.map fun (body, rest) => (c :: body, rest)

theorem basicRest?_escape {e : Char} (letter : isGap e = false ∧ e ≠ '\n' ∧ e ≠ '\r')
    (stands : escape? (e :: s) = some (c, rest)) :
    basicRest? multi (fuel + 1) ('\x5c' :: e :: s) = withChar c (basicRest? multi fuel rest) := by
  have unfolded : afterFoldedLine? (e :: s) = none := by
    rw [afterFoldedLine?, List.dropWhile_cons_of_neg (by simp [letter.1])]
    split <;> simp_all
  rw [basicRest?]
  simp only [unfolded, stands, ite_self]
  rfl

theorem numberedChar?_hexDigits {n : Nat} (small : n < 0x80) :
    numberedChar? (hexDigits 4 n) = some (Char.ofNat n) := by
  have all : ∀ n < 0x80, numberedChar? (hexDigits 4 n) = some (Char.ofNat n) := by
    decide +kernel
  exact all n small

theorem escape?_number (control : c.toNat < 0x80) (rest : List Char) :
    escape? ('u' :: hexDigits 4 c.toNat ++ rest) = some (c, rest) := by
  have four : (hexDigits 4 c.toNat).length = 4 := by simp [hexDigits]
  rw [List.cons_append, escape?, if_pos (by simp [four]), List.take_left' four,
    List.drop_left' four, numberedChar?_hexDigits control, Char.ofNat_toNat]
  rfl

theorem basicRest?_plain (quote : c ≠ '\x22') (backslash : c ≠ '\x5c') (line : c ≠ '\n')
    (printed : isControl c = false) :
    basicRest? multi (fuel + 1) (c :: rest) = withChar c (basicRest? multi fuel rest) := by
  have carriage : c ≠ '\r' := by
    rintro rfl
    exact absurd printed (by decide)
  rw [basicRest?]
  · simp [line, printed, withChar]
  · exact quote
  · exact backslash
  · exact fun _ same => absurd same carriage

theorem basicRest?_escaped (quote : c ≠ '\x22') (line : c ≠ '\n') :
    basicRest? multi (fuel + 1) (escaped c ++ rest) = withChar c (basicRest? multi fuel rest) := by
  by_cases lettered : c ∈ ['\x08', '\t', '\x0c', '\r', '\x5c']
  · simp only [List.mem_cons, List.not_mem_nil, or_false] at lettered
    rcases lettered with rfl | rfl | rfl | rfl | rfl <;> exact basicRest?_escape (by decide) rfl
  · simp only [List.mem_cons, List.not_mem_nil, or_false, not_or] at lettered
    by_cases control : c.toNat < 0x20 ∨ c.toNat = 0x7F
    · have numbered : escaped c = '\x5c' :: 'u' :: hexDigits 4 c.toNat := by
        simp [escaped, lettered, control]
      rw [numbered]
      exact basicRest?_escape (by decide) (escape?_number (by omega) rest)
    · have plain : escaped c = [c] := by
        simp [escaped, lettered, control]
      rw [not_or] at control
      rw [plain]
      exact basicRest?_plain quote lettered.2.2.2.2 line (by simp [isControl]; tauto)

theorem basicRest?_lineFeed :
    basicRest? true (fuel + 1) ('\n' :: rest) = withChar '\n' (basicRest? true fuel rest) := by
  rw [basicRest?] <;> first | rfl | simp

theorem basicRest?_closing {found : List Char × List Char}
    (closes : closingQuotes? '\x22' ('\x22' :: rest) = some found) :
    basicRest? true (fuel + 1) ('\x22' :: rest) = some found := by
  rw [basicRest?]
  simp [closes]

theorem basicRest?_quote (open_ : closingQuotes? '\x22' ('\x22' :: rest) = none) :
    basicRest? true (fuel + 1) ('\x22' :: rest) = withChar '\x22' (basicRest? true fuel rest) := by
  rw [basicRest?]
  simp [open_, withChar]

end Basic

section Escaped

variable {c : Char} {s rest : List Char} {fuel : Nat} {long : Bool} {quotes : Nat}

theorem escapedText_other (quote : c ≠ '\x22') (line : c ≠ '\n') :
    escapedText long quotes (c :: s) = escaped c ++ escapedText long 0 s := by
  rw [escapedText, if_neg (by simpa using quote), if_neg (by simpa using line)]

theorem escapedText_passed (few : quotes ≠ 2) :
    escapedText true quotes ('\x22' :: s) = '\x22' :: escapedText true (quotes + 1) s := by
  simp [escapedText, few]

theorem exists_escaped (quote : c ≠ '\x22') (line : c ≠ '\n') :
    ∃ d t, escaped c = d :: t ∧ d ∉ ['\x22', '\n', '\r'] := by
  by_cases carriage : c = '\r'
  · subst carriage
    exact ⟨'\x5c', _, rfl, by decide⟩
  · simp only [escaped]
    split_ifs
    all_goals first
      | exact ⟨'\x5c', _, rfl, by decide⟩
      | exact ⟨c, [], rfl, by simp [quote, line, carriage]⟩

theorem basicRest?_line (quotes : Nat) (enough : s.length < fuel) :
    basicRest? false fuel (escapedText false quotes s ++ '\x22' :: rest) = some (s, rest) := by
  induction s generalizing fuel quotes with
  | nil =>
      obtain ⟨fuel, rfl⟩ := Nat.exists_eq_add_of_lt enough
      rfl
  | cons c s ih =>
      obtain ⟨fuel, rfl⟩ : ∃ fuel', fuel = fuel' + 1 := ⟨fuel - 1, by omega⟩
      have less : s.length < fuel := by simpa using enough
      have read := ih 0 less
      by_cases quote : c = '\x22'
      · subst quote
        exact (basicRest?_escape (by decide) rfl).trans (congrArg (withChar '\x22') read)
      · by_cases line : c = '\n'
        · subst line
          exact (basicRest?_escape (by decide) rfl).trans (congrArg (withChar '\n') read)
        · rw [escapedText_other quote line, List.append_assoc, basicRest?_escaped quote line, read]
          rfl

/-- No more than two quotes in a row stand without an escape. -/
theorem length_takeWhile_escapedText (few : quotes ≤ 2) :
    ((escapedText true quotes s).takeWhile (· == '\x22')).length + quotes ≤ 2 := by
  induction s generalizing quotes with
  | nil => simpa [escapedText] using few
  | cons c s ih =>
      by_cases quote : c = '\x22'
      · subst quote
        by_cases full : quotes = 2
        · subst full
          rfl
        · have next : quotes + 1 ≤ 2 := by omega
          have rest := ih next
          rw [escapedText_passed full, List.takeWhile_cons_of_pos (by simp), List.length_cons]
          omega
      · by_cases line : c = '\n'
        · subst line
          simpa [escapedText] using few
        · obtain ⟨d, t, first, other⟩ := exists_escaped quote line
          have different : d ≠ '\x22' := List.ne_of_not_mem_cons other
          rw [escapedText_other quote line, first, List.cons_append,
            List.takeWhile_cons_of_neg (by simpa using different)]
          simpa using few

theorem escapedText_eq_self (all : ∀ c ∈ escapedText true quotes s, c = '\x22') :
    escapedText true quotes s = s := by
  induction s generalizing quotes with
  | nil => rfl
  | cons c s ih =>
      by_cases quote : c = '\x22'
      · subst quote
        by_cases full : quotes = 2
        · subst full
          exact absurd (all '\x5c' List.mem_cons_self) (by decide)
        · rw [escapedText_passed full] at all ⊢
          rw [ih fun c member => all c (List.mem_cons_of_mem _ member)]
      · by_cases line : c = '\n'
        · subst line
          exact absurd (all '\n' List.mem_cons_self) (by decide)
        · obtain ⟨d, t, first, other⟩ := exists_escaped quote line
          rw [escapedText_other quote line, first] at all
          exact absurd (all d List.mem_cons_self) (List.ne_of_not_mem_cons other)

theorem basicRest?_lines (few : quotes ≤ 2) (enough : s.length < fuel)
    (ends : rest.head? ≠ some '\x22') :
    basicRest? true fuel (escapedText true quotes s ++ (List.replicate 3 '\x22' ++ rest)) =
      some (s, rest) := by
  induction s generalizing fuel quotes with
  | nil =>
      obtain ⟨fuel, rfl⟩ : ∃ fuel', fuel = fuel' + 1 := ⟨fuel - 1, by omega⟩
      exact basicRest?_closing (closingQuotes?_all (s := []) (by simp) (by simp) ends)
  | cons c s ih =>
      obtain ⟨fuel, rfl⟩ : ∃ fuel', fuel = fuel' + 1 := ⟨fuel - 1, by omega⟩
      have less : s.length < fuel := by simpa using enough
      by_cases quote : c = '\x22'
      · subst quote
        by_cases full : quotes = 2
        · subst full
          exact (basicRest?_escape (by decide) rfl).trans
            (congrArg (withChar '\x22') (ih (by omega) less))
        · have run := length_takeWhile_escapedText (s := '\x22' :: s) few
          have written := escapedText_passed (s := s) full
          by_cases all : ∀ c ∈ escapedText true quotes ('\x22' :: s), c = '\x22'
          · have same := escapedText_eq_self all
            rw [same] at all run ⊢
            exact basicRest?_closing (closingQuotes?_all all (by omega) ends)
          · push Not at all
            have opens := closingQuotes?_none all (by omega) (List.replicate 3 '\x22' ++ rest)
            rw [written, List.cons_append] at opens ⊢
            rw [basicRest?_quote opens, ih (by omega) less]
            rfl
      · by_cases line : c = '\n'
        · subst line
          exact basicRest?_lineFeed.trans (congrArg (withChar '\n') (ih (by omega) less))
        · rw [escapedText_other quote line, List.append_assoc, basicRest?_escaped quote line,
            ih (by omega) less]
          rfl

end Escaped

section Literal

variable {c : Char} {s rest : List Char} {multi : Bool}

theorem literalRest?_plain (quote : c ≠ '\x27') (line : c ≠ '\n') (printed : isControl c = false) :
    literalRest? multi (c :: rest) = withChar c (literalRest? multi rest) := by
  have carriage : c ≠ '\r' := by
    rintro rfl
    exact absurd printed (by decide)
  rw [literalRest?]
  · simp [quote, line, printed, withChar]
  · exact fun _ same => absurd same carriage

theorem literalRest?_lineFeed :
    literalRest? true ('\n' :: rest) = withChar '\n' (literalRest? true rest) := by
  rw [literalRest?] <;> first | rfl | simp

theorem literalRest?_closing {found : List Char × List Char}
    (closes : closingQuotes? '\x27' ('\x27' :: rest) = some found) :
    literalRest? true ('\x27' :: rest) = some found := by
  rw [literalRest?]
  · simp [closes]
  · simp

theorem literalRest?_quote (opens : closingQuotes? '\x27' ('\x27' :: rest) = none) :
    literalRest? true ('\x27' :: rest) = withChar '\x27' (literalRest? true rest) := by
  rw [literalRest?]
  · simp [opens, withChar]
  · simp

theorem isControl_of_plain (plain : needsEscape c = false) (line : c ≠ '\n') :
    isControl c = false := by
  simp only [needsEscape, isControl] at plain ⊢
  simpa [line] using plain

theorem literalRest?_line (plain : ∀ c ∈ s, needsEscape c = false) (quote : '\x27' ∉ s)
    (line : '\n' ∉ s) : literalRest? false (s ++ '\x27' :: rest) = some (s, rest) := by
  induction s with
  | nil =>
      rw [List.nil_append, literalRest?] <;> simp
  | cons c s ih =>
      rw [List.forall_mem_cons] at plain
      rw [List.mem_cons, not_or] at quote line
      have first := Ne.symm line.1
      rw [List.cons_append, literalRest?_plain (Ne.symm quote.1) first
        (isControl_of_plain plain.1 first), ih plain.2 quote.2 line.2]
      rfl

theorem length_takeWhile_le_longestRun (mark : Char) (run : Nat) :
    (s.takeWhile (· == mark)).length + run ≤ longestRun mark run s := by
  induction s generalizing run with
  | nil => simp [longestRun]
  | cons c s ih =>
      rw [longestRun, List.takeWhile_cons]
      split
      · have rest := ih (run + 1)
        rw [List.length_cons]
        omega
      · simp

theorem literalRest?_lines {run : Nat} (plain : ∀ c ∈ s, needsEscape c = false)
    (few : longestRun '\x27' run s ≤ 2) (ends : rest.head? ≠ some '\x27') :
    literalRest? true (s ++ (List.replicate 3 '\x27' ++ rest)) = some (s, rest) := by
  induction s generalizing run with
  | nil => exact literalRest?_closing (closingQuotes?_all (s := []) (by simp) (by simp) ends)
  | cons c s ih =>
      have first := (length_takeWhile_le_longestRun (s := c :: s) '\x27' run).trans few
      rw [List.forall_mem_cons] at plain
      rw [longestRun] at few
      by_cases quote : c = '\x27'
      · subst quote
        by_cases all : ∀ c ∈ '\x27' :: s, c = '\x27'
        · exact literalRest?_closing (closingQuotes?_all all (by omega) ends)
        · push Not at all
          have opens := closingQuotes?_none all (by omega) (List.replicate 3 '\x27' ++ rest)
          rw [if_pos BEq.rfl] at few
          rw [List.cons_append] at opens ⊢
          rw [literalRest?_quote opens, ih plain.2 few]
          rfl
      · rw [if_neg (by simpa using quote)] at few
        have read := ih plain.2 (le_trans (le_max_right _ _) few)
        by_cases line : c = '\n'
        · subst line
          exact literalRest?_lineFeed.trans (congrArg (withChar '\n') read)
        · rw [List.cons_append, literalRest?_plain quote line (isControl_of_plain plain.1 line), read]
          rfl

end Literal

section Forms

variable {s t rest : List Char}

theorem length_le_escapedText (long : Bool) (quotes : Nat) :
    s.length ≤ (escapedText long quotes s).length := by
  induction s generalizing quotes with
  | nil => exact Nat.zero_le _
  | cons c s ih =>
      have rest := ih 0
      by_cases quote : c = '\x22'
      · subst quote
        have next := ih (quotes + 1)
        rw [escapedText, if_pos BEq.rfl]
        split <;> simp only [List.length_cons] <;> omega
      · by_cases line : c = '\n'
        · subst line
          cases long <;> simpa [escapedText] using by omega
        · obtain ⟨d, t, first, _⟩ := exists_escaped quote line
          rw [escapedText_other quote line, first, List.length_cons, List.length_append,
            List.length_cons]
          omega

theorem dropFirstBreak_of_plain (first : ∀ c ∈ t.head?, c ≠ '\n' ∧ c ≠ '\r') :
    dropFirstBreak t = t := by
  cases t with
  | nil => rfl
  | cons c t =>
      obtain ⟨line, carriage⟩ := first c rfl
      rw [dropFirstBreak] <;> simp [line, carriage]

theorem dropFirstBreak_openingBreak (first : '\n' ∉ s → ∀ c ∈ t.head?, c ≠ '\n' ∧ c ≠ '\r') :
    dropFirstBreak (openingBreak s ++ t) = t := by
  by_cases broken : '\n' ∈ s
  · simp [openingBreak, broken, dropFirstBreak]
  · simp only [openingBreak, List.contains_eq_mem, broken, decide_false, Bool.false_eq_true,
      if_false, List.nil_append]
    exact dropFirstBreak_of_plain (first broken)

theorem exists_escapedText (c : Char) (s : List Char) (quotes : Nat) :
    ∃ d t, escapedText false quotes (c :: s) = d :: t ∧ d ≠ '\x22' := by
  by_cases quote : c = '\x22'
  · subst quote
    exact ⟨'\x5c', _, rfl, by decide⟩
  · by_cases line : c = '\n'
    · subst line
      exact ⟨'\x5c', _, rfl, by decide⟩
    · obtain ⟨d, t, first, other⟩ := exists_escaped quote line
      exact ⟨d, t ++ escapedText false 0 s, by rw [escapedText_other quote line, first]; rfl,
        List.ne_of_not_mem_cons other⟩

theorem readString?_basic (ends : rest.head? ≠ some '\x22') :
    readString? true (writtenIn .basic s ++ rest) = some (String.ofList s, rest) := by
  have single : ∀ t, escapedText false 0 s ++ '\x22' :: rest ≠ '\x22' :: '\x22' :: t := by
    intro t same
    cases s with
    | nil => exact ends (by simp [(List.cons.inj same).2])
    | cons c s =>
        obtain ⟨d, t', first, other⟩ := exists_escapedText c s 0
        rw [first] at same
        exact other (List.cons.inj same).1
  have long := length_le_escapedText (s := s) false 0
  simp only [writtenIn, List.cons_append, List.append_assoc, List.nil_append]
  rw [readString?]
  · rw [basicRest?_line 0 (by rw [List.length_append]; omega)]
    rfl
  · exact fun t same => single t (by simpa using same)

theorem readString?_literal (plain : ∀ c ∈ s, needsEscape c = false) (quote : '\x27' ∉ s)
    (line : '\n' ∉ s) (ends : rest.head? ≠ some '\x27') :
    readString? true (writtenIn .literal s ++ rest) = some (String.ofList s, rest) := by
  have single : ∀ t, s ++ '\x27' :: rest ≠ '\x27' :: '\x27' :: t := by
    intro t same
    cases s with
    | nil => exact ends (by simp [(List.cons.inj same).2])
    | cons c s => exact quote ((List.cons.inj same).1 ▸ List.mem_cons_self)
  simp only [writtenIn, List.cons_append, List.append_assoc, List.nil_append]
  rw [readString?]
  · rw [literalRest?_line plain quote line]
    rfl
  · exact fun t same => single t (by simpa using same)

theorem readString?_threeDouble (t : List Char) :
    readString? true (List.replicate 3 '\x22' ++ t) =
      (basicRest? true (t.length + 1) (dropFirstBreak t)).map fun (body, rest) =>
        (String.ofList body, rest) := by
  change readString? true ('\x22' :: '\x22' :: '\x22' :: t) = _
  rw [readString?, if_pos rfl]
  cases basicRest? true (t.length + 1) (dropFirstBreak t) <;> rfl

theorem readString?_threeSingle (t : List Char) :
    readString? true (List.replicate 3 '\x27' ++ t) =
      (literalRest? true (dropFirstBreak t)).map fun (body, rest) => (String.ofList body, rest) := by
  change readString? true ('\x27' :: '\x27' :: '\x27' :: t) = _
  rw [readString?, if_pos rfl]
  cases literalRest? true (dropFirstBreak t) <;> rfl

theorem head?_longBasic (whole : '\n' ∉ s) :
    ∀ d ∈ (escapedText true 0 s ++ (List.replicate 3 '\x22' ++ rest)).head?,
      d ≠ '\n' ∧ d ≠ '\r' := by
  intro d first
  cases s with
  | nil =>
      obtain rfl : '\x22' = d := by simpa [escapedText] using first
      decide
  | cons c s =>
      by_cases quote : c = '\x22'
      · subst quote
        obtain rfl : '\x22' = d := by simpa [escapedText] using first
        decide
      · have line : c ≠ '\n' := fun same => whole (same ▸ List.mem_cons_self)
        obtain ⟨e, t, written, other⟩ := exists_escaped quote line
        rw [escapedText_other quote line, written] at first
        obtain rfl : e = d := by simpa using first
        simp only [List.mem_cons, not_or] at other
        exact ⟨other.2.1, other.2.2.1⟩

theorem readString?_longBasic (ends : rest.head? ≠ some '\x22') :
    readString? true (writtenIn .longBasic s ++ rest) = some (String.ofList s, rest) := by
  have long := length_le_escapedText (s := s) true 0
  simp only [writtenIn, List.append_assoc]
  rw [readString?_threeDouble, dropFirstBreak_openingBreak head?_longBasic,
    basicRest?_lines (by omega) (by simp only [List.length_append]; omega) ends]
  rfl

theorem head?_longLiteral (plain : ∀ c ∈ s, needsEscape c = false) (whole : '\n' ∉ s) :
    ∀ d ∈ (s ++ (List.replicate 3 '\x27' ++ rest)).head?, d ≠ '\n' ∧ d ≠ '\r' := by
  intro d first
  cases s with
  | nil =>
      obtain rfl : '\x27' = d := by simpa using first
      decide
  | cons c s =>
      obtain rfl : c = d := by simpa using first
      refine ⟨fun same => whole (same ▸ List.mem_cons_self), fun same => ?_⟩
      exact absurd (same ▸ plain c List.mem_cons_self) (by decide)

theorem readString?_longLiteral (plain : ∀ c ∈ s, needsEscape c = false)
    (few : longestRun '\x27' 0 s ≤ 2) (ends : rest.head? ≠ some '\x27') :
    readString? true (writtenIn .longLiteral s ++ rest) = some (String.ofList s, rest) := by
  simp only [writtenIn, List.append_assoc]
  rw [readString?_threeSingle, dropFirstBreak_openingBreak (head?_longLiteral plain),
    literalRest?_lines plain few ends]
  rfl

/-- A text is read as it was written, up to its end, unless another quote follows. -/
theorem readString?_quoted (s : String)
    (ends : rest.head? ≠ some '\x22' ∧ rest.head? ≠ some '\x27') :
    readString? true ((quoted s).toList ++ rest) = some (s, rest) := by
  have written : (quoted s).toList = writtenIn (plainestForm s.toList) s.toList :=
    String.toList_ofList
  rw [written, ← String.ofList_toList (s := s)]
  generalize s.toList = s
  rw [String.toList_ofList]
  simp only [plainestForm]
  split_ifs with h h h h h
  · exact readString?_basic ends.1
  · exact readString?_literal (by simp_all) (by simp_all) (by simp_all) ends.2
  · exact readString?_longBasic ends.1
  · exact readString?_longLiteral (by simp_all) (by simp_all) ends.2
  · exact readString?_longBasic ends.1
  · exact readString?_basic ends.1

end Forms

end Concordance.Toml
