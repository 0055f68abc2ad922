import Mathlib
import Concordance.Proofs.Atlas.Languages

/-! # Accounting for descriptions

Every description of a symbol either adds a language to its symbol or is declined with
one problem. The symbols gathered and their languages are just those of the descriptions
without a flaw, in whatever order and from however many files these come.
-/

namespace Concordance

theorem SymbolDescription.mem_known {s : SymbolDescription} (flawless : s.flaw? = none) :
    s.kind.identifier ∈ SymbolKind.known := by
  by_contra unknown
  have refused : (!SymbolKind.known.contains s.kind.identifier) = true := by simpa using unknown
  simp only [flaw?, refused, if_true] at flawless
  grind

namespace Gathering

section Repeats

variable {α : Type} [DecidableEq α]

/-- How many elements of a list are among those seen before, or stood in the list before. -/
def repeats (seen : List α) : List α → Nat
  | [] => 0
  | x :: rest => (if x ∈ seen then 1 else 0) + repeats (x :: seen) rest

theorem repeats_concat (seen l : List α) (x : α) :
    repeats seen (l ++ [x]) = repeats seen l + if x ∈ seen ∨ x ∈ l then 1 else 0 := by
  induction l generalizing seen with
  | nil => simp [repeats]
  | cons y l ih =>
      have among : (x ∈ y :: seen ∨ x ∈ l) ↔ (x ∈ seen ∨ x ∈ y :: l) := by
        simp only [List.mem_cons]
        tauto
      rw [List.cons_append, repeats, repeats, ih]
      simp only [among]
      omega

end Repeats

/-- The symbols and languages of descriptions without a flaw. -/
def spoken (read : List SymbolDescription) : List (String × String) :=
  (read.filter fun s => s.flaw?.isNone).map fun s => (s.precise, s.language)

variable {g : Gathering} {read : List SymbolDescription} {s : SymbolDescription}
  {preferred : String}

theorem mem_spoken {precise language : String} :
    (precise, language) ∈ spoken read ↔
      ∃ s ∈ read, s.flaw? = none ∧ s.precise = precise ∧ s.language = language := by
  simp [spoken, and_assoc]

theorem spoken_concat (flawless : s.flaw? = none) :
    spoken (read ++ [s]) = spoken read ++ [(s.precise, s.language)] := by
  simp [spoken, flawless]

theorem spoken_concat_of_flaw (flawed : s.flaw?.isSome = true) :
    spoken (read ++ [s]) = spoken read := by
  obtain ⟨flaw, flawed⟩ := Option.isSome_iff_exists.mp flawed
  simp [spoken, flawed]

/-- What became of the descriptions that were read. -/
structure Records (g : Gathering) (read : List SymbolDescription) : Prop where
  /-- Those with a flaw and those that repeat a language of their symbol were declined. -/
  declined : g.problems.length =
    read.countP (fun s => s.flaw?.isSome) + repeats [] (spoken read)
  /-- The others gave the symbols and their languages. -/
  languages : ∀ precise language,
    (∃ symbol, g.symbols.get? precise = some symbol ∧ language ∈ symbol.content.languages) ↔
      (precise, language) ∈ spoken read
  kinds : ∀ {precise : String} {symbol : GatheredSymbol},
    g.symbols.get? precise = some symbol → symbol.content.kind.identifier ∈ SymbolKind.known

section Merged

variable {read : List Described} {d : Described}

theorem told_any_iff :
    ((told d.symbol.precise read).any fun e => e.symbol.language == d.symbol.language) = true ↔
      (d.symbol.precise, d.symbol.language) ∈ spoken (read.map Described.symbol) := by
  simp [mem_spoken, mem_told, and_assoc]

theorem length_reports (read : List Described) :
    (reports [] read).length = (read.map Described.symbol).countP (fun s => s.flaw?.isSome) +
      repeats [] (spoken (read.map Described.symbol)) := by
  induction read using List.reverseRecOn with
  | nil => rfl
  | append_singleton read d ih =>
      rw [reports_concat, List.nil_append, List.length_append, ih, List.map_append,
        List.map_singleton, List.countP_append, List.countP_singleton]
      cases flaw : d.symbol.flaw? with
      | some kind =>
          have flawed : d.symbol.flaw?.isSome = true := by rw [flaw]; rfl
          rw [spoken_concat_of_flaw flawed, report?_of_flaw flaw]
          simp only [Option.isSome_some, Option.toList_some, List.length_singleton, if_true]
          omega
      | none =>
          rw [spoken_concat flaw, repeats_concat, report?_of_flawless flaw]
          simp only [told_any_iff, List.not_mem_nil, false_or, Option.isSome_none]
          split
          · rw [Option.toList_some, List.length_singleton]
            simp only [Bool.false_eq_true, if_false]
            omega
          · rw [Option.toList_none, List.length_nil]
            simp only [Bool.false_eq_true, if_false]
            omega

theorem Merged.records (merged : Merged preferred g read) :
    g.Records (read.map Described.symbol) where
  declined := by rw [merged.problems, length_reports]
  languages precise language := by
    have told_iff : (precise, language) ∈ spoken (read.map Described.symbol) ↔
        ∃ e ∈ told precise read, e.symbol.language = language := by
      simp [mem_spoken, mem_told, and_assoc]
    rw [told_iff]
    cases descriptions : told precise read with
    | nil => simp [merged.unknown descriptions]
    | cons first rest =>
        obtain ⟨symbol, found, merges⟩ := merged.known descriptions
        rw [← merges.mem_languages, found]
        simp
  kinds {precise symbol} found := by
    cases descriptions : told precise read with
    | nil =>
        rw [merged.unknown descriptions] at found
        cases found
    | cons first rest =>
        obtain ⟨other, known, merges⟩ := merged.known descriptions
        rw [found] at known
        cases known
        have kind : symbol.content.kind = first.symbol.kind :=
          congrArg SymbolContent.kind merges.content
        have among : first ∈ told precise read := descriptions ▸ List.mem_cons_self
        rw [kind]
        exact SymbolDescription.mem_known (mem_told.mp among).2.1

theorem ofFiles_records (preferred : String) (files : List SymbolGraphFile) :
    (ofFiles preferred files).Records (files.flatMap fun file => file.graph.symbols) := by
  have read : (described files).map Described.symbol =
      files.flatMap fun file => file.graph.symbols := by
    simp [described, List.map_flatMap, Function.comp_def]
  rw [← read]
  exact (ofFiles_merged preferred files).records

end Merged

theorem Records.has_iff (records : g.Records read) {precise : String} :
    g.symbols.has precise = true ↔ ∃ s ∈ read, s.flaw? = none ∧ s.precise = precise := by
  constructor
  · intro held
    obtain ⟨symbol, found⟩ := Option.isSome_iff_exists.mp held
    have spoke := (records.languages precise _).mp ⟨symbol, found, List.mem_cons_self⟩
    obtain ⟨s, member, flawless, same, _⟩ := mem_spoken.mp spoke
    exact ⟨s, member, flawless, same⟩
  · rintro ⟨s, member, flawless, same⟩
    obtain ⟨symbol, found, _⟩ := (records.languages precise s.language).mpr
      (mem_spoken.mpr ⟨s, member, flawless, same, rfl⟩)
    exact Option.isSome_of_eq_some found

theorem Records.length_inOrder (records : g.Records read) (sound : g.Sound) :
    g.inOrder.length = ((spoken read).map Prod.fst).toFinset.card := by
  have same : ((spoken read).map Prod.fst).toFinset = g.symbols.keys.toFinset := by
    ext precise
    rw [List.mem_toFinset, List.mem_toFinset, ← Assoc.has_iff_mem_keys, records.has_iff]
    simp [spoken, and_assoc]
  rw [same, List.toFinset_card_of_nodup sound.rising.nodup_keys]
  simp [inOrder, Assoc.values, Assoc.keys]

theorem Records.inOrder (records : g.Records read) (sound : g.Sound) {symbol : GatheredSymbol}
    (member : symbol ∈ g.inOrder) :
    (∃ s ∈ read, s.flaw? = none ∧ s.precise = symbol.precise) ∧
      symbol.content.kind.identifier ∈ SymbolKind.known ∧
      ∀ language, language ∈ symbol.content.languages ↔
        ∃ s ∈ read, s.flaw? = none ∧ s.precise = symbol.precise ∧ s.language = language := by
  simp only [Gathering.inOrder, List.mem_mergeSort, Assoc.values, List.mem_map] at member
  obtain ⟨⟨precise, t⟩, entry, rfl⟩ := member
  have found := sound.rising.get?_eq_some_iff.mpr entry
  obtain rfl := (sound.own found).1
  refine ⟨records.has_iff.mp (Option.isSome_of_eq_some found), records.kinds found, ?_⟩
  intro language
  rw [← mem_spoken, ← records.languages, found]
  simp

end Gathering

end Concordance
