import Mathlib
import Concordance.Proofs.Atlas.Gathered

/-! # Symbols in several languages

What becomes of a symbol that is described more than once. In each language it is
presented as the first description in that language has it, the preferred language
is the primary one if there is a description in it, and everything else is as the
very first description has it. A description that repeats a language is declined
with one warning and changes nothing.
-/

namespace Concordance

namespace SymbolContent

variable {c : SymbolContent} {preferred language : String} {p q : Presentation}
  {told : List Presentation}

/-- All presentations of the symbol, the primary one first. -/
def presentations (c : SymbolContent) : List Presentation := c.primary :: c.variants

theorem mem_languages :
    language ∈ c.languages ↔ ∃ p ∈ c.presentations, p.language = language := by
  have same : c.languages = c.presentations.map Presentation.language := rfl
  rw [same, List.mem_map]

def firstIn (language : String) (told : List Presentation) : Option Presentation :=
  told.find? fun p => p.language == language

section Preferring

theorem exchange_perm (language : String) (p : Presentation) (variants : List Presentation) :
    ((exchange language p variants).1 :: (exchange language p variants).2).Perm
      (p :: variants) := by
  induction variants with
  | nil => exact .refl _
  | cons v rest ih =>
      rw [exchange]
      split
      · exact .swap p v rest
      · exact (List.Perm.swap v _ _).trans ((ih.cons v).trans (.swap p v rest))

theorem exchange_present {variants : List Presentation}
    (present : ∃ v ∈ variants, v.language = language) :
    (exchange language p variants).1.language = language := by
  induction variants with
  | nil => simp at present
  | cons v rest ih =>
      rw [exchange]
      split
      · rename_i here
        exact eq_of_beq here
      · rename_i elsewhere
        refine ih ?_
        obtain ⟨w, member, same⟩ := present
        rcases List.mem_cons.mp member with rfl | later
        · exact absurd (beq_iff_eq.mpr same) elsewhere
        · exact ⟨w, later, same⟩

theorem exchange_absent {variants : List Presentation}
    (absent : ∀ v ∈ variants, v.language ≠ language) :
    exchange language p variants = (p, variants) := by
  induction variants with
  | nil => rfl
  | cons v rest ih =>
      have different : (v.language == language) = false := by
        simpa using absent v List.mem_cons_self
      rw [exchange, different, ih fun w later => absent w (List.mem_cons_of_mem _ later)]
      rfl

theorem presentations_preferLanguage :
    (c.preferLanguage preferred).presentations.Perm c.presentations := by
  rw [preferLanguage]
  split
  · exact .refl _
  · exact exchange_perm preferred c.primary c.variants

theorem primary_preferLanguage (present : preferred ∈ c.languages) :
    (c.preferLanguage preferred).primary.language = preferred := by
  rw [preferLanguage]
  split
  · rename_i already
    exact eq_of_beq already
  · rename_i other
    refine exchange_present (List.mem_map.mp ?_)
    exact (List.mem_cons.mp present).resolve_left fun same => other (beq_iff_eq.mpr same.symm)

theorem preferLanguage_absent (absent : preferred ∉ c.languages) :
    c.preferLanguage preferred = c := by
  have variants : ∀ v ∈ c.variants, v.language ≠ preferred := fun v member same =>
    absent (List.mem_cons_of_mem _ (List.mem_map.mpr ⟨v, member, same⟩))
  rw [preferLanguage, exchange_absent variants]
  split <;> rfl

theorem preferLanguage_rest (preferred : String) (c : SymbolContent) :
    c.preferLanguage preferred =
      { c with
        primary := (c.preferLanguage preferred).primary
        variants := (c.preferLanguage preferred).variants } := by
  rw [preferLanguage]
  split <;> rfl

end Preferring

section FirstIn

theorem firstIn_concat (told : List Presentation) (p : Presentation) :
    firstIn language (told ++ [p]) =
      (firstIn language told).or (if p.language = language then some p else none) := by
  simp only [firstIn, List.find?_append, List.find?_singleton, beq_iff_eq]

theorem firstIn_eq_none : firstIn language told = none ↔ ∀ p ∈ told, p.language ≠ language := by
  simp [firstIn, List.find?_eq_none]

theorem firstIn_mem (found : firstIn language told = some p) : p ∈ told ∧ p.language = language :=
  ⟨List.mem_of_find?_eq_some found, by simpa using List.find?_some found⟩

end FirstIn

/-- How a symbol is presented that was described in several languages, one after the other. -/
structure Presents (preferred : String) (told : List Presentation) (c : SymbolContent) : Prop where
  /-- No two of its presentations are in one language. -/
  nodup : c.languages.Nodup
  /-- In each language it is presented as it first was. -/
  first : ∀ p, p ∈ c.presentations ↔ firstIn p.language told = some p
  /-- The preferred language is the primary one, if it is among them. -/
  primary : (∃ p ∈ told, p.language = preferred) → c.primary.language = preferred
  /-- The first presentation is the primary one otherwise. -/
  otherwise : (∀ p ∈ told, p.language ≠ preferred) → told.head? = some c.primary

namespace Presents

theorem mem_languages (presents : c.Presents preferred told) :
    language ∈ c.languages ↔ ∃ p ∈ told, p.language = language := by
  constructor
  · intro member
    obtain ⟨p, shown, rfl⟩ := SymbolContent.mem_languages.mp member
    exact ⟨p, firstIn_mem ((presents.first p).mp shown)⟩
  · intro told'
    cases found : firstIn language told with
    | none =>
        obtain ⟨p, member, same⟩ := told'
        exact absurd same (firstIn_eq_none.mp found p member)
    | some q =>
        obtain ⟨_, rfl⟩ := firstIn_mem found
        exact SymbolContent.mem_languages.mpr ⟨q, (presents.first q).mpr found, rfl⟩

theorem alone (single : c.variants = []) :
    (c.preferLanguage preferred).Presents preferred [c.primary] := by
  have same : c.preferLanguage preferred = c := by
    by_cases already : c.primary.language == preferred
    · rw [preferLanguage, if_pos already]
    · refine preferLanguage_absent ?_
      have other : ¬preferred = c.primary.language := fun same => already (beq_iff_eq.mpr same.symm)
      simpa [languages, single] using other
  rw [same]
  refine ⟨by simp [languages, single], fun p => ?_, by simp, fun _ => rfl⟩
  simp only [presentations, single, firstIn, List.mem_singleton, List.find?_singleton, beq_iff_eq]
  constructor
  · rintro rfl
    exact if_pos rfl
  · intro found
    split at found
    · exact (Option.some.inj found).symm
    · cases found

/-- A description in a language that the symbol has changes nothing. -/
theorem again (presents : c.Presents preferred told) (known : p.language ∈ c.languages) :
    c.Presents preferred (told ++ [p]) := by
  obtain ⟨earlier, member, same⟩ := presents.mem_languages.mp known
  refine ⟨presents.nodup, fun q => ?_, fun found => ?_, fun absent => ?_⟩
  · rw [presents.first, firstIn_concat]
    cases first : firstIn q.language told with
    | some _ => rfl
    | none =>
        -- The earlier presentation in this language would have been found.
        have different : p.language ≠ q.language := same ▸ firstIn_eq_none.mp first earlier member
        simp [different]
  · obtain ⟨q, among, here⟩ := found
    refine presents.primary ?_
    rcases List.mem_append.mp among with before | now
    · exact ⟨q, before, here⟩
    · obtain rfl := List.mem_singleton.mp now
      exact ⟨earlier, member, same.trans here⟩
  · rw [List.head?_append,
      presents.otherwise fun q before => absent q (List.mem_append_left _ before)]
    rfl

theorem further (presents : c.Presents preferred told) (new : p.language ∉ c.languages) :
    (c.addPresentation preferred p).Presents preferred (told ++ [p]) := by
  have added : (c.addPresentation preferred p).presentations.Perm (c.presentations ++ [p]) :=
    presentations_preferLanguage
  have unseen : ∀ q ∈ told, q.language ≠ p.language := fun q member same =>
    new (presents.mem_languages.mpr ⟨q, member, same⟩)
  have spoken : preferred ∈ ({ c with variants := c.variants ++ [p] } : SymbolContent).languages ↔
      ∃ q ∈ told ++ [p], q.language = preferred := by
    have own : ({ c with variants := c.variants ++ [p] } : SymbolContent).languages =
        c.languages ++ [p.language] := by simp [languages]
    simp only [own, List.mem_append, List.mem_singleton, presents.mem_languages, or_and_right,
      exists_or, exists_eq_left, @eq_comm _ preferred]
  refine ⟨?_, fun q => ?_, fun found => ?_, fun absent => ?_⟩
  · refine (added.map Presentation.language).nodup_iff.mpr ?_
    rw [List.map_append]
    exact presents.nodup.append (List.nodup_singleton _) (List.disjoint_singleton.mpr new)
  · rw [added.mem_iff, List.mem_append, List.mem_singleton, presents.first, firstIn_concat]
    by_cases same : p.language = q.language
    · rw [← same, firstIn_eq_none.mpr unseen]
      simp [eq_comm]
    · have different : q ≠ p := fun equal => same (equal ▸ rfl)
      simp [same, different]
  · exact primary_preferLanguage (spoken.mpr found)
  · have own : preferred ∉
        ({ c with variants := c.variants ++ [p] } : SymbolContent).languages := by
      rw [spoken]
      rintro ⟨q, among, same⟩
      exact absent q among same
    rw [addPresentation, preferLanguage_absent own, List.head?_append,
      presents.otherwise fun q before => absent q (List.mem_append_left _ before)]
    rfl

end Presents

end SymbolContent

namespace Gathering

variable {preferred precise : String} {g : Gathering} {read rest : List Described}
  {d first : Described} {symbol : GatheredSymbol}

/-- What a symbol holds that was described in one place first, and then in others. -/
structure Merges (preferred : String) (first : Described) (rest : List Described)
    (symbol : GatheredSymbol) : Prop where
  /-- It is presented in the languages of its descriptions. -/
  presents : symbol.content.Presents preferred ((first :: rest).map fun d => d.symbol.presentation)
  /-- All else that its page is to hold is as first described. -/
  content : symbol.content = { SymbolContent.ofDescription first.module first.symbol with
    primary := symbol.content.primary
    variants := symbol.content.variants }
  /-- So is its path. -/
  path : symbol.humanPath = first.module :: first.symbol.path
  /-- It comes from the first file that describes it. -/
  source : symbol.source = first.path

theorem Merges.mem_languages (merges : Merges preferred first rest symbol) {language : String} :
    language ∈ symbol.content.languages ↔ ∃ e ∈ first :: rest, e.symbol.language = language := by
  rw [merges.presents.mem_languages]
  simp only [List.mem_map, exists_exists_and_eq_and]
  rfl

theorem Merges.start (preferred : String) (d : Described) :
    Merges preferred d [] {
      content := (SymbolContent.ofDescription d.module d.symbol).preferLanguage preferred
      humanPath := d.module :: d.symbol.path
      source := d.path } where
  presents := .alone (c := SymbolContent.ofDescription d.module d.symbol) rfl
  content := SymbolContent.preferLanguage_rest _ _
  path := rfl
  source := rfl

theorem Merges.again (merges : Merges preferred first rest symbol)
    (known : d.symbol.language ∈ symbol.content.languages) :
    Merges preferred first (rest ++ [d]) symbol where
  presents := by
    rw [← List.cons_append, List.map_append]
    exact merges.presents.again known
  content := merges.content
  path := merges.path
  source := merges.source

theorem Merges.further (merges : Merges preferred first rest symbol)
    (new : d.symbol.language ∉ symbol.content.languages) :
    Merges preferred first (rest ++ [d]) { symbol with
      content := symbol.content.addPresentation preferred d.symbol.presentation } where
  presents := by
    rw [← List.cons_append, List.map_append]
    exact merges.presents.further new
  content := by
    rw [SymbolContent.addPresentation, SymbolContent.preferLanguage_rest, merges.content]
  path := merges.path
  source := merges.source

/-- Descriptions of a symbol that have no flaw. -/
def told (precise : String) (read : List Described) : List Described :=
  read.filter fun d => d.symbol.flaw?.isNone && d.symbol.precise == precise

theorem mem_told :
    d ∈ told precise read ↔ d ∈ read ∧ d.symbol.flaw? = none ∧ d.symbol.precise = precise := by
  simp [told]

theorem told_concat_of_flaw (flawed : d.symbol.flaw?.isSome = true) :
    told precise (read ++ [d]) = told precise read := by
  obtain ⟨flaw, flawed⟩ := Option.isSome_iff_exists.mp flawed
  simp [told, flawed]

theorem told_concat (flawless : d.symbol.flaw? = none) :
    told precise (read ++ [d]) =
      told precise read ++ if d.symbol.precise = precise then [d] else [] := by
  by_cases same : d.symbol.precise = precise
  · simp [told, flawless, same]
  · simp [told, flawless, same]

/-- The problem with a description that is read after others: it has a flaw, or its symbol was
described in its language before. -/
def report? (earlier : List Described) (d : Described) : Option Problem :=
  match d.symbol.malformed? d.path with
  | some m => some (.warning m.message d.path)
  | none =>
      if (told d.symbol.precise earlier).any fun e => e.symbol.language == d.symbol.language then
        some (.warning s!"duplicate symbol `{d.symbol.precise}` in {d.symbol.language}" d.path)
      else none

theorem report?_of_flaw {flaw : SymbolFlaw} (flawed : d.symbol.flaw? = some flaw) :
    report? read d =
      some (.warning (MalformedSymbol.message ⟨d.path, d.symbol.precise, flaw⟩) d.path) := by
  simp only [report?, SymbolDescription.malformed?, flawed, Option.map_some]

theorem report?_of_flawless (flawless : d.symbol.flaw? = none) :
    report? read d =
      if (told d.symbol.precise read).any fun e => e.symbol.language == d.symbol.language then
        some (.warning s!"duplicate symbol `{d.symbol.precise}` in {d.symbol.language}" d.path)
      else none := by
  simp only [report?, SymbolDescription.malformed?, flawless, Option.map_none]

/-- The problems with descriptions that are read after others, in the order of the descriptions. -/
def reports (earlier : List Described) : List Described → List Problem
  | [] => []
  | d :: rest => (report? earlier d).toList ++ reports (earlier ++ [d]) rest

theorem reports_concat (earlier read : List Described) (d : Described) :
    reports earlier (read ++ [d]) =
      reports earlier read ++ (report? (earlier ++ read) d).toList := by
  induction read generalizing earlier with
  | nil => simp [reports]
  | cons e read ih => simp [reports, ih]

/-- What descriptions that were read made of each symbol, and what was reported of them. -/
structure Merged (preferred : String) (g : Gathering) (read : List Described) : Prop where
  /-- A symbol that was not described is not known. -/
  unknown : ∀ {precise}, told precise read = [] → g.symbols.get? precise = none
  /-- One that was described is merged from its descriptions. -/
  known : ∀ {precise first rest}, told precise read = first :: rest →
    ∃ symbol, g.symbols.get? precise = some symbol ∧ Merges preferred first rest symbol
  /-- The problems are those of the descriptions. -/
  problems : g.problems = reports [] read

theorem Merged.empty (preferred : String) : Merged preferred {} [] where
  unknown _ := rfl
  known some := by cases some
  problems := rfl

theorem Merged.decline_problems (merged : Merged preferred g read) {message : String}
    (problem : report? read d = some (.warning message d.path)) :
    (g.decline message d.path).problems = reports [] (read ++ [d]) := by
  rw [reports_concat, List.nil_append, problem, ← merged.problems]
  rfl

theorem Merged.put (merged : Merged preferred g read) (flawless : d.symbol.flaw? = none)
    (fine : report? read d = none)
    (merges : ∀ {first rest}, told d.symbol.precise (read ++ [d]) = first :: rest →
      Merges preferred first rest symbol) :
    Merged preferred { g with symbols := g.symbols.put d.symbol.precise symbol } (read ++ [d]) where
  unknown {precise} none := by
    rw [told_concat flawless] at none
    rw [Assoc.get?_put]
    split
    · rename_i same
      simp [eq_of_beq same] at none
    · exact merged.unknown (List.append_eq_nil_iff.mp none).1
  known {precise first rest} some := by
    rw [Assoc.get?_put]
    split
    · rename_i same
      obtain rfl := eq_of_beq same
      exact ⟨symbol, rfl, merges some⟩
    · rename_i other
      rw [told_concat flawless, if_neg fun same => other (beq_iff_eq.mpr same.symm),
        List.append_nil] at some
      exact merged.known some
  problems := by rw [reports_concat, List.nil_append, fine, ← merged.problems, Option.toList_none,
    List.append_nil]

theorem Merged.again (merged : Merged preferred g read) (flawless : d.symbol.flaw? = none)
    (told' : told d.symbol.precise read = first :: rest)
    (found : g.symbols.get? d.symbol.precise = some symbol)
    (known : d.symbol.language ∈ symbol.content.languages) {message : String}
    (problem : report? read d = some (.warning message d.path)) :
    Merged preferred (g.decline message d.path) (read ++ [d]) where
  unknown {precise} none := by
    rw [told_concat flawless] at none
    exact merged.unknown (List.append_eq_nil_iff.mp none).1
  known {precise first' rest'} some := by
    rw [told_concat flawless] at some
    split at some
    · rename_i same
      subst same
      rw [told', List.cons_append] at some
      obtain ⟨rfl, rfl⟩ := List.cons.inj some
      obtain ⟨s, found', merges⟩ := merged.known told'
      rw [found] at found'
      cases found'
      exact ⟨symbol, found, merges.again known⟩
    · rw [List.append_nil] at some
      exact merged.known some
  problems := merged.decline_problems problem

theorem Merged.addSymbol (merged : Merged preferred g read) (d : Described) :
    Merged preferred (addSymbol preferred d.path d.module g d.symbol) (read ++ [d]) := by
  cases flaw : d.symbol.flaw? with
  | some kind =>
      have flawed : d.symbol.flaw?.isSome = true := by rw [flaw]; rfl
      simp only [Gathering.addSymbol, SymbolDescription.malformed?, flaw, Option.map_some]
      refine ⟨fun none => ?_, fun some => ?_, merged.decline_problems (report?_of_flaw flaw)⟩
      · rw [told_concat_of_flaw flawed] at none
        exact merged.unknown none
      · rw [told_concat_of_flaw flawed] at some
        exact merged.known some
  | none =>
      have judged : report? read d = _ := report?_of_flawless flaw
      have grown : told d.symbol.precise (read ++ [d]) = told d.symbol.precise read ++ [d] := by
        rw [told_concat flaw, if_pos rfl]
      simp only [Gathering.addSymbol, SymbolDescription.malformed?, flaw, Option.map_none]
      cases earlier : told d.symbol.precise read with
      | nil =>
          simp only [merged.unknown earlier]
          refine merged.put flaw (by simp [judged, earlier]) fun some => ?_
          rw [grown, earlier] at some
          cases some
          exact .start preferred d
      | cons first rest =>
          obtain ⟨known, found, merges⟩ := merged.known earlier
          simp only [found]
          by_cases repeated : d.symbol.language ∈ known.content.languages
          · rw [if_pos (List.contains_iff_mem.mpr repeated)]
            refine merged.again flaw earlier found repeated ?_
            rw [judged, earlier, if_pos]
            simpa using merges.mem_languages.mp repeated
          · rw [if_neg (mt List.contains_iff_mem.mp repeated)]
            refine merged.put flaw ?_ fun some => ?_
            · rw [judged, earlier, if_neg]
              simpa using mt merges.mem_languages.mpr repeated
            · rw [grown, earlier, List.cons_append] at some
              obtain ⟨rfl, rfl⟩ := List.cons.inj some
              exact merges.further repeated

theorem Merged.addModule (merged : Merged preferred g read) (module : String) :
    Merged preferred (g.addModule module) read := by
  rw [Gathering.addModule]
  split
  · exact merged
  · exact ⟨merged.unknown, merged.known, merged.problems⟩

theorem Merged.addEdge (merged : Merged preferred g read) (e : SymbolEdge) :
    Merged preferred (g.addEdge e) read := by
  simp only [Gathering.addEdge]
  split
  · split
    · rename_i member found
      refine ⟨fun {precise} none => ?_, fun {precise first rest} some => ?_, merged.problems⟩
      · rw [Assoc.get?_put]
        split
        · rename_i same
          rw [eq_of_beq same] at none
          rw [merged.unknown none] at found
          cases found
        · exact merged.unknown none
      · obtain ⟨symbol, known, merges⟩ := merged.known some
        rw [Assoc.get?_put]
        split
        · rename_i same
          rw [eq_of_beq same, found] at known
          cases known
          exact ⟨_, rfl, merges.presents, merges.content, merges.path, merges.source⟩
        · exact ⟨symbol, known, merges⟩
    · exact merged
  · split
    · exact ⟨merged.unknown, merged.known, merged.problems⟩
    · exact merged

theorem ofFiles_merged (preferred : String) (files : List SymbolGraphFile) :
    Merged preferred (ofFiles preferred files) (described files) :=
  ofFiles_reads (P := Merged preferred) (.empty preferred)
    (fun module merged => merged.addModule module) (fun d merged => merged.addSymbol d)
    (fun e merged => merged.addEdge e) files

theorem Sound.inOrder_filter (sound : g.Sound) (found : g.symbols.get? precise = some symbol) :
    g.inOrder.filter (fun s => s.precise == precise) = [symbol] := by
  have own := (sound.own found).1
  have member : symbol ∈ g.inOrder :=
    List.mem_mergeSort.mpr (List.mem_map.mpr ⟨(precise, symbol), Assoc.mem_of_get? found, rfl⟩)
  have nodup := (List.Nodup.of_map _ sound.nodup).filter fun s => s.precise == precise
  refine List.perm_singleton.mp ((List.perm_ext_iff_of_nodup nodup (List.nodup_singleton _)).mpr ?_)
  intro s
  rw [List.mem_filter, List.mem_singleton, beq_iff_eq]
  constructor
  · rintro ⟨among, same⟩
    exact List.inj_on_of_nodup_map sound.nodup among member (same.trans own.symm)
  · rintro rfl
    exact ⟨member, own⟩

/-- All descriptions of a symbol, in whatever files and languages, are merged into one symbol, and
every description that is declined is reported once: one that has a flaw, and one in a language in
which its symbol was described before. -/
theorem ofFiles_languages (preferred : String) (files : List SymbolGraphFile) {precise : String}
    {first : Described} {rest : List Described}
    (some : told precise (described files) = first :: rest) :
    (∃ symbol, (ofFiles preferred files).inOrder.filter (fun s => s.precise == precise) = [symbol] ∧
      Merges preferred first rest symbol) ∧
    (ofFiles preferred files).problems = reports [] (described files) := by
  have merged := ofFiles_merged preferred files
  obtain ⟨symbol, found, merges⟩ := merged.known some
  exact ⟨⟨symbol, (ofFiles_sound preferred files).inOrder_filter found, merges⟩, merged.problems⟩

theorem ofFiles_languages_part :
    let occ : SymbolDescription := {
      language := "occ", precise := "s:Part", kindName := "Class", kindIdentifier := "objc.class"
      title := "KITPart", path := ["KITPart"] }
    let swift : SymbolDescription := {
      language := "swift", precise := "s:Part", kindName := "Class"
      kindIdentifier := "swift.class", title := "Part", path := ["Part"] }
    let files : List SymbolGraphFile := [
      ⟨"Kit-objc.symbols.json", { module := "Kit", symbols := [occ] }⟩,
      ⟨"Kit.symbols.json", { module := "Kit", symbols := [swift, swift] }⟩]
    (∃ symbol, (ofFiles "swift" files).inOrder.filter (fun s => s.precise == "s:Part") = [symbol] ∧
      symbol.content.primary = swift.presentation ∧ symbol.humanPath = ["Kit", "KITPart"]) ∧
    (ofFiles "swift" files).problems =
      [.warning "duplicate symbol `s:Part` in swift" "Kit.symbols.json"] := by
  intro occ swift files
  have read : told "s:Part" (described files) = [
      ⟨"Kit-objc.symbols.json", "Kit", occ⟩, ⟨"Kit.symbols.json", "Kit", swift⟩,
      ⟨"Kit.symbols.json", "Kit", swift⟩] := by decide +kernel +revert
  have reported : reports [] (described files) =
      [.warning "duplicate symbol `s:Part` in swift" "Kit.symbols.json"] := by
    decide +kernel +revert
  obtain ⟨⟨symbol, only, merges⟩, problems⟩ := ofFiles_languages "swift" files read
  have primary := merges.presents.primary ⟨swift.presentation, by simp, rfl⟩
  have shown : symbol.content.primary ∈ symbol.content.presentations := List.mem_cons_self
  have first := (merges.presents.first _).mp shown
  rw [primary] at first
  exact ⟨⟨symbol, only, (Option.some.inj first).symm, merges.path⟩, problems.trans reported⟩

end Gathering

end Concordance
