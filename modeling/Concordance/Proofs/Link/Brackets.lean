import Mathlib
import Concordance.Proofs.Atlas.Suffixes

/-! # Suffixes behind names with brackets

A hyphen splits a component only where all brackets before it are closed. Any bracket closes
any other, and a closing bracket too many closes nothing. So a suffix is read back from behind
a name exactly if no end of the name opens more brackets than it closes. Operators such as
`<(_:_:)` open one that nothing closes.
-/

namespace Concordance.Component

def isOpening (c : Char) : Bool := ['(', '<', '['].contains c

def isClosing (c : Char) : Bool := [')', '>', ']'].contains c

/-- A text whose ends all close at least as many brackets as they open. -/
def Closes (s : List Char) : Prop :=
  ∀ rest, rest <:+ s → rest.countP isOpening ≤ rest.countP isClosing

variable {s t : List Char} {name suffix : String}

theorem closes_cons {c : Char} : Closes (c :: s) ↔
    (c :: s).countP isOpening ≤ (c :: s).countP isClosing ∧ Closes s := by
  simp only [Closes, List.suffix_cons_iff, forall_eq_or_imp]

theorem not_isClosing_of_isOpening {c : Char} (opening : isOpening c = true) :
    isClosing c = false := by
  have each : ∀ c ∈ ['(', '<', '['], isClosing c = false := by simp [isClosing]
  exact each c (List.elem_iff.mp opening)

theorem bracketDepth_eq (depth : Nat) (c : Char) : bracketDepth depth c =
    depth + (if isOpening c then 1 else 0) - (if isClosing c then 1 else 0) := by
  have cases_eq : bracketDepth depth c =
      if isOpening c then depth + 1 else if isClosing c then depth - 1 else depth := rfl
  rw [cases_eq]
  split
  · rename_i opening
    simp [not_isClosing_of_isOpening opening]
  · split <;> rfl

/-- From a depth, a text leads back to depth zero if it closes its own brackets and as many more as
were open. The induction is on the text, so the depth varies. -/
theorem foldl_bracketDepth_eq_zero_iff (depth : Nat) (s : List Char) :
    s.foldl bracketDepth depth = 0 ↔
      Closes s ∧ depth + s.countP isOpening ≤ s.countP isClosing := by
  induction s generalizing depth with
  | nil => simp [Closes]
  | cons c s ih =>
      rw [List.foldl_cons, ih, closes_cons, List.countP_cons, List.countP_cons, bracketDepth_eq]
      have own : Closes s → s.countP isOpening ≤ s.countP isClosing :=
        fun closes => closes s (List.suffix_refl s)
      have apart : (if isOpening c then 1 else 0) = 0 ∨ (if isClosing c then 1 else 0) = 0 := by
        cases opening : isOpening c with
        | false => exact .inl rfl
        | true => exact .inr (by simp [not_isClosing_of_isOpening opening])
      -- Whatever the bracket, it counts on one side only.
      generalize (if isOpening c then 1 else 0) = up at *
      generalize (if isClosing c then 1 else 0) = down at *
      constructor
      · rintro ⟨closes, enough⟩
        have tail := own closes
        exact ⟨⟨by omega, closes⟩, by omega⟩
      · rintro ⟨⟨_, closes⟩, enough⟩
        have tail := own closes
        exact ⟨closes, by omega⟩

theorem endDepth_eq_zero_iff : endDepth s = 0 ↔ Closes s := by
  rw [endDepth, foldl_bracketDepth_eq_zero_iff, Nat.zero_add]
  exact and_iff_left_of_imp fun closes => closes s (List.suffix_refl s)

instance (s : List Char) : Decidable (Closes s) :=
  decidable_of_iff (endDepth s = 0) endDepth_eq_zero_iff

/-- Whatever can be a suffix is read back from behind a name if the name closes its brackets, and
only then. -/
theorem mem_readings_suffix (named : name ≠ "") (long : isSuffix suffix.toList = true) :
    (name, some suffix) ∈ readings (name ++ "-" ++ suffix) ↔ Closes name.toList := by
  have clean : suffix.toList.head? ≠ some '-' := by
    simp only [isSuffix, Bool.and_eq_true, bne_iff_ne] at long
    exact long.1.1.2
  rw [← endDepth_eq_zero_iff]
  constructor
  · intro member
    exact (suffix_of_mem_readings clean member rfl).1
  · intro closed
    have kept := dropWhile_hyphen clean
    refine mem_readings.mpr (.inr ⟨suffix.toList, ?_, ?_, closed, ?_, ?_⟩)
    · simp [String.toList_append]
    · simpa using named
    · rw [kept]
      exact long
    · rw [kept, String.ofList_toList]

/-- The hash of a symbol, its kind, and both of them can be read back from behind a name exactly if
every end of the name closes at least as many brackets as it opens. -/
theorem readings_readBack (named : name ≠ "") (precise : String) {kind : String}
    (known : kind ∈ SymbolKind.known) :
    let d := Distinction.ofSymbol precise kind
    ∀ suffix ∈ [d.hash, d.kind, d.kind ++ "-" ++ d.hash],
      (name, some suffix) ∈ readings (name ++ "-" ++ suffix) ↔
        ∀ rest, rest <:+ name.toList → rest.countP isOpening ≤ rest.countP isClosing := by
  intro d
  have worded : d.Worded := Distinction.ofSymbol_worded precise known
  have both : isSuffix (d.kind ++ "-" ++ d.hash).toList = true := by
    have whole : (d.kind ++ "-" ++ d.hash).toList = d.kind.toList ++ '-' :: d.hash.toList := by
      simp [String.toList_append]
    rw [whole]
    exact worded.kind.isSuffix_append worded.hash
  simp only [List.forall_mem_cons]
  exact ⟨mem_readings_suffix named worded.hash.isSuffix,
    mem_readings_suffix named worded.kind.isSuffix, mem_readings_suffix named both,
    List.forall_mem_nil _⟩

/-- The name of the operator `<` is not told from a suffix behind it, and that of `>` is. -/
theorem readings_readBack_operator :
    let less := "<(_:_:)"
    let greater := ">(_:_:)"
    let d := Distinction.ofSymbol "s:1loiySbSi_SitF" "func.op"
    (less ≠ "" ∧ greater ≠ "" ∧ "func.op" ∈ SymbolKind.known) ∧
      ∀ suffix ∈ [d.hash, d.kind, d.kind ++ "-" ++ d.hash],
        (less, some suffix) ∉ readings (less ++ "-" ++ suffix) ∧
          (greater, some suffix) ∈ readings (greater ++ "-" ++ suffix) := by
  intro less greater d
  have facts : less ≠ "" ∧ greater ≠ "" ∧ "func.op" ∈ SymbolKind.known := by decide
  have opens : ¬ Closes less.toList := by decide
  have closes : Closes greater.toList := by decide
  refine ⟨facts, fun suffix member => ⟨fun read => opens ?_, ?_⟩⟩
  · exact (readings_readBack facts.1 _ facts.2.2 suffix member).mp read
  · exact (readings_readBack facts.2.1 _ facts.2.2 suffix member).mpr closes

end Concordance.Component
