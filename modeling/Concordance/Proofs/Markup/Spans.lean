import Mathlib
import Concordance.Markup.Span
import Concordance.Proofs.Text.Cut

/-! # How running text is divided into spans

A mark stands at a place if its form matches there, which says what may stand between its
delimiters and nothing about how it is found. No two marks stand at one place, so a text is
divided into marks and the stretches between them in one way, if marks are taken as they
come and no stretch holds a place where one stands. Reading a text finds that division.
-/

namespace Concordance

namespace Mark

variable {m n : Mark} {s : List Char}

/-- What may stand between the delimiters of a form. -/
inductive Formed : Mark → Prop where
  /-- A symbol is any text without a backtick. -/
  | symbol {name : List Char} (filled : name ≠ []) (plain : tick ∉ name) : Formed (.symbol name)
  /-- A topic has a scheme, and behind it neither a blank nor the bracket that ends it. -/
  | topic {target : List Char} (filled : target ≠ [])
      (plain : ∀ c ∈ target, c ≠ '>' ∧ Text.isBlank c = false) :
      Formed (.topic ("doc:".toList ++ target))
  /-- A text is ended by its bracket, and a destination by its parenthesis or a blank. -/
  | bracket {text destination : List Char} (filled : text ≠ []) (plain : ']' ∉ text)
      (filled' : destination ≠ []) (plain' : ∀ c ∈ destination, c ≠ ')' ∧ Text.isBlank c = false) :
      Formed (.bracket text destination)
  /-- Code is any text without a backtick. -/
  | code {text : List Char} (filled : text ≠ []) (plain : tick ∉ text) : Formed (.code text)

/-- The mark matches at the start of a text. -/
def Stands (m : Mark) (s : List Char) : Prop := m.Formed ∧ m.source <+: s

/-- The place of a form in the order in which the forms are tried. -/
def rank : Mark → Nat
  | .symbol _ => 0
  | .topic _ => 1
  | .bracket _ _ => 2
  | .code _ => 3

section Delimiters

variable {found tail : List Char} {close : Char}

theorem upTo?_close (ends : Char → Bool) (closes : ends close = true) :
    upTo? ends s = some (found, close :: tail) ↔
      found ≠ [] ∧ (∀ c ∈ found, ends c = false) ∧ s = found ++ close :: tail := by
  have run : (s.span fun c => !ends c) =
      (s.takeWhile fun c => !ends c, s.dropWhile fun c => !ends c) :=
    List.span_eq_takeWhile_dropWhile _ _
  rw [upTo?, run]
  constructor
  · intro taken
    split at taken
    · cases taken
    · rename_i other
      obtain ⟨first, last⟩ := Prod.mk.inj (Option.some.inj taken)
      refine ⟨fun nothing => other _ (Prod.ext (first.trans nothing) rfl), fun c member => ?_, ?_⟩
      · rw [← first] at member
        simpa using List.mem_takeWhile_imp member
      · rw [← first, ← last, List.takeWhile_append_dropWhile]
  · rintro ⟨filled, plain, rfl⟩
    have inside : ∀ c ∈ found, (!ends c) = true := fun c member => by simp [plain c member]
    rw [List.takeWhile_append_of_pos inside, List.dropWhile_append_of_pos inside,
      List.takeWhile_cons_of_neg (by simp [closes]), List.dropWhile_cons_of_neg (by simp [closes]),
      List.append_nil]
    split
    · rename_i nothing
      exact absurd (Prod.mk.inj nothing).1 filled
    · rfl

theorem upTo?_char : upTo? (· == close) s = some (found, close :: tail) ↔
    found ≠ [] ∧ close ∉ found ∧ s = found ++ close :: tail := by
  rw [upTo?_close (· == close) BEq.rfl]
  simp only [beq_eq_false_iff_ne, ne_eq, ← List.forall_mem_ne']

theorem upTo?_word :
    upTo? (fun c => c == close || Text.isBlank c) s = some (found, close :: tail) ↔
      found ≠ [] ∧ (∀ c ∈ found, c ≠ close ∧ Text.isBlank c = false) ∧
        s = found ++ close :: tail := by
  rw [upTo?_close (fun c => c == close || Text.isBlank c) (by simp)]
  simp only [Bool.or_eq_false_iff, beq_eq_false_iff_ne]

end Delimiters

section Forms

theorem symbolAt?_eq_some_iff : symbolAt? s = some m ↔ m.rank = 0 ∧ m.Stands s := by
  simp only [symbolAt?, Option.bind_eq_bind, Option.bind_eq_some_iff, Option.pure_def, Option.some_inj,
    Text.stripStart?_eq_some_iff, Prod.exists]
  constructor
  · rintro ⟨_, rfl, name, _, taken, after, rfl, rfl⟩
    obtain ⟨filled, plain, rfl⟩ := upTo?_char.mp taken
    exact ⟨rfl, .symbol filled plain, after, by simp [source]⟩
  · rintro ⟨form, formed, after, rfl⟩
    cases formed with
    | @symbol name filled plain =>
        exact ⟨name ++ tick :: tick :: after, by simp [source], name, _,
          upTo?_char.mpr ⟨filled, plain, rfl⟩, after, rfl, rfl⟩
    | topic | bracket | code => cases form

theorem topicAt?_eq_some_iff : topicAt? s = some m ↔ m.rank = 1 ∧ m.Stands s := by
  simp only [topicAt?, Option.bind_eq_bind, Option.bind_eq_some_iff, Option.pure_def, Option.some_inj,
    Text.stripStart?_eq_some_iff, Prod.exists]
  constructor
  · rintro ⟨_, rfl, _, rfl, target, _, taken, after, rfl, rfl⟩
    obtain ⟨filled, plain, rfl⟩ := upTo?_word.mp taken
    exact ⟨rfl, .topic filled plain, after, by simp [source]⟩
  · rintro ⟨form, formed, after, rfl⟩
    cases formed with
    | @topic target filled plain =>
        exact ⟨"doc:".toList ++ (target ++ '>' :: after), by simp [source], _, rfl, target, _,
          upTo?_word.mpr ⟨filled, plain, rfl⟩, after, rfl, rfl⟩
    | symbol | bracket | code => cases form

theorem bracketAt?_eq_some_iff : bracketAt? s = some m ↔ m.rank = 2 ∧ m.Stands s := by
  simp only [bracketAt?, Option.bind_eq_bind, Option.bind_eq_some_iff, Option.pure_def,
    Option.some_inj, Text.stripStart?_eq_some_iff, Prod.exists]
  constructor
  · rintro ⟨_, rfl, text, _, taken, _, rfl, destination, _, taken', after, rfl, rfl⟩
    obtain ⟨filled, plain, rfl⟩ := upTo?_char.mp taken
    obtain ⟨filled', plain', rfl⟩ := upTo?_word.mp taken'
    exact ⟨rfl, .bracket filled plain filled' plain', after, by simp [source]⟩
  · rintro ⟨form, formed, after, rfl⟩
    cases formed with
    | @bracket text destination filled plain filled' plain' =>
        exact ⟨text ++ ']' :: '(' :: (destination ++ ')' :: after), by simp [source], text, _,
          upTo?_char.mpr ⟨filled, plain, rfl⟩, _, rfl, destination, _,
          upTo?_word.mpr ⟨filled', plain', rfl⟩, after, rfl, rfl⟩
    | symbol | topic | code => cases form

theorem codeAt?_eq_some_iff : codeAt? s = some m ↔ m.rank = 3 ∧ m.Stands s := by
  simp only [codeAt?, Option.bind_eq_bind, Option.bind_eq_some_iff, Option.pure_def, Option.some_inj,
    Text.stripStart?_eq_some_iff, Prod.exists]
  constructor
  · rintro ⟨_, rfl, text, _, taken, after, rfl, rfl⟩
    obtain ⟨filled, plain, rfl⟩ := upTo?_char.mp taken
    exact ⟨rfl, .code filled plain, after, by simp [source]⟩
  · rintro ⟨form, formed, after, rfl⟩
    cases formed with
    | @code text filled plain =>
        exact ⟨text ++ tick :: after, by simp [source], text, _,
          upTo?_char.mpr ⟨filled, plain, rfl⟩, after, rfl, rfl⟩
    | symbol | topic | bracket => cases form

/-- What stands between single backticks is not empty, which tells them from double ones. -/
theorem source_symbol_ne_code {name text after after' : List Char} (filled : text ≠ [])
    (plain : tick ∉ text) : (symbol name).source ++ after ≠ (code text).source ++ after' := by
  cases text with
  | nil => exact absurd rfl filled
  | cons c text =>
      intro same
      simp only [source, List.cons_append, List.cons.injEq] at same
      exact plain (same.2.1 ▸ List.mem_cons_self)

theorem Stands.rank_eq (stands : m.Stands s) (other : n.Stands s) : m.rank = n.rank := by
  obtain ⟨formed, after, rfl⟩ := stands
  obtain ⟨formed', after', same⟩ := other
  have opening := congrArg List.head? same
  cases formed with
  | symbol =>
      cases formed' with
      | symbol => rfl
      | code filled plain => exact absurd same.symm (source_symbol_ne_code filled plain)
      | topic | bracket => simp [source, tick] at opening
  | code filled plain =>
      cases formed' with
      | code => rfl
      | symbol => exact absurd same (source_symbol_ne_code filled plain)
      | topic | bracket => simp [source, tick] at opening
  | topic =>
      cases formed' with
      | topic => rfl
      | symbol | bracket | code => simp [source, tick] at opening
  | bracket =>
      cases formed' with
      | bracket => rfl
      | symbol | topic | code => simp [source, tick] at opening

theorem Stands.unique (stands : m.Stands s) (other : n.Stands s) : m = n := by
  obtain ⟨form, finds⟩ : ∃ form : List Char → Option Mark,
      ∀ k, form s = some k ↔ k.rank = m.rank ∧ k.Stands s := by
    cases m with
    | symbol => exact ⟨symbolAt?, fun _ => symbolAt?_eq_some_iff⟩
    | topic => exact ⟨topicAt?, fun _ => topicAt?_eq_some_iff⟩
    | bracket => exact ⟨bracketAt?, fun _ => bracketAt?_eq_some_iff⟩
    | code => exact ⟨codeAt?, fun _ => codeAt?_eq_some_iff⟩
  have one := (finds m).mpr ⟨rfl, stands⟩
  have two := (finds n).mpr ⟨other.rank_eq stands, other⟩
  exact Option.some.inj (one.symm.trans two)

theorem stands_of_at? (found : at? s = some m) : m.Stands s := by
  simp only [at?, Option.or_eq_some_iff, symbolAt?_eq_some_iff, topicAt?_eq_some_iff,
    bracketAt?_eq_some_iff, codeAt?_eq_some_iff] at found
  rcases found with ⟨_, stands⟩ | ⟨_, ⟨_, stands⟩ | ⟨_, ⟨_, stands⟩ | ⟨_, _, stands⟩⟩⟩
  · exact stands
  · exact stands
  · exact stands
  · exact stands

theorem at?_eq_none_iff : at? s = none ↔ ∀ m : Mark, ¬ m.Stands s := by
  constructor
  · intro nothing m stands
    simp only [at?, Option.or_eq_none_iff] at nothing
    obtain ⟨symbols, topics, brackets, codes⟩ := nothing
    cases m with
    | symbol =>
        exact Option.some_ne_none _ ((symbolAt?_eq_some_iff.mpr ⟨rfl, stands⟩).symm.trans symbols)
    | topic =>
        exact Option.some_ne_none _ ((topicAt?_eq_some_iff.mpr ⟨rfl, stands⟩).symm.trans topics)
    | bracket =>
        exact Option.some_ne_none _ ((bracketAt?_eq_some_iff.mpr ⟨rfl, stands⟩).symm.trans brackets)
    | code => exact Option.some_ne_none _ ((codeAt?_eq_some_iff.mpr ⟨rfl, stands⟩).symm.trans codes)
  · intro none
    cases found : at? s with
    | none => rfl
    | some m => exact absurd (stands_of_at? found) (none m)

/-- Trying the forms one after the other finds the mark at a place. -/
theorem at?_eq_some_iff : at? s = some m ↔ m.Stands s := by
  refine ⟨stands_of_at?, fun stands => ?_⟩
  cases found : at? s with
  | none => exact absurd stands (at?_eq_none_iff.mp found m)
  | some n => rw [(stands_of_at? found).unique stands]

end Forms

theorem source_ne_nil (m : Mark) : m.source ≠ [] := by
  cases m <;> exact List.cons_ne_nil _ _

end Mark

namespace Span

open Mark (Stands)

variable {s text rest : List Char} {spans others : List Span} {mark : Mark} {c : Char}

/-- A text is divided into spans, from front to back. -/
inductive Divided : List Char → List Span → Prop where
  | nil : Divided [] []
  /-- A mark, of the first form that matches at its place. -/
  | marked {mark : Mark} {rest : List Char} {spans : List Span}
      (stands : mark.Stands (mark.source ++ rest))
      (first : ∀ other : Mark, other.Stands (mark.source ++ rest) → mark.rank ≤ other.rank)
      (later : Divided rest spans) : Divided (mark.source ++ rest) (.marked mark :: spans)
  /-- A plain stretch, at no place of which a form matches, up to a mark or the end. -/
  | plain {text rest : List Char} {spans : List Span} (filled : text ≠ [])
      (unmarked : ∀ front back, text = front ++ back → back ≠ [] →
        ∀ mark : Mark, ¬ mark.Stands (back ++ rest))
      (whole : ∀ stretch, spans.head? ≠ some (.plain stretch)) (later : Divided rest spans) :
      Divided (text ++ rest) (.plain text :: spans)

theorem Divided.flatMap_source (divided : Divided s spans) : spans.flatMap source = s := by
  induction divided with
  | nil => rfl
  | marked _ _ _ ih => rw [List.flatMap_cons, ih]; rfl
  | plain _ _ _ _ ih => rw [List.flatMap_cons, ih]; rfl

theorem Divided.consPlain (divided : Divided s spans)
    (unmarked : ∀ mark : Mark, ¬ mark.Stands (c :: s)) : Divided (c :: s) (consPlain c spans) := by
  have alone (whole : ∀ stretch, spans.head? ≠ some (.plain stretch)) :
      Divided ([c] ++ s) (.plain [c] :: spans) := by
    refine .plain (List.cons_ne_nil _ _) (fun front back parts filled => ?_) whole divided
    have all : back = [c] := by
      cases front with
      | nil => exact parts.symm
      | cons d front =>
          simp only [List.cons_append, List.cons.injEq, List.nil_eq, List.append_eq_nil_iff] at parts
          exact absurd parts.2.2 filled
    exact all ▸ unmarked
  cases divided with
  | nil => exact alone nofun
  | marked => exact alone fun stretch same => by cases same
  | @plain text rest spans filled inside whole later =>
      have grown : Divided ((c :: text) ++ rest) (.plain (c :: text) :: spans) := by
        refine .plain (List.cons_ne_nil _ _) (fun front back parts filled' => ?_) whole later
        cases front with
        | nil => exact (List.nil_append back ▸ parts) ▸ unmarked
        | cons d front => exact inside front back (List.cons.inj parts).2 filled'
      exact grown

theorem divided_cut (s : List Char) : Divided s (cut s) := by
  fun_induction cut s with
  | case1 => exact .nil
  | case2 c rest mark found ih =>
      have stands := Mark.at?_eq_some_iff.mp found
      obtain ⟨after, whole⟩ := stands.2
      have behind : rest.drop (mark.source.length - 1) = after := by
        have long := List.length_pos_of_ne_nil mark.source_ne_nil
        rw [← List.drop_succ_cons, Nat.sub_add_cancel long, ← whole, List.drop_left]
      rw [behind] at ih ⊢
      rw [← whole] at stands ⊢
      exact .marked stands (fun other there => (stands.rank_eq there).le) ih
  | case3 c rest nothing ih => exact ih.consPlain (Mark.at?_eq_none_iff.mp nothing)

theorem cut_marked (stands : mark.Stands (mark.source ++ rest)) :
    cut (mark.source ++ rest) = .marked mark :: cut rest := by
  have found := Mark.at?_eq_some_iff.mpr stands
  cases parts : mark.source with
  | nil => exact absurd parts mark.source_ne_nil
  | cons c tail =>
      rw [parts, List.cons_append] at found
      rw [List.cons_append, cut, found]
      simp only [parts, List.length_cons, Nat.add_sub_cancel, List.drop_left]

theorem cut_plain (filled : text ≠ [])
    (unmarked : ∀ front back, text = front ++ back → back ≠ [] →
      ∀ mark : Mark, ¬ mark.Stands (back ++ rest))
    (whole : ∀ stretch, (cut rest).head? ≠ some (.plain stretch)) :
    cut (text ++ rest) = .plain text :: cut rest := by
  induction text with
  | nil => exact absurd rfl filled
  | cons c text ih =>
      have nothing := Mark.at?_eq_none_iff.mpr (unmarked [] (c :: text) rfl (List.cons_ne_nil _ _))
      rw [List.cons_append] at nothing ⊢
      rw [cut, nothing]
      simp only
      cases text with
      | nil =>
          cases behind : cut rest with
          | nil => rw [List.nil_append, behind]; rfl
          | cons span spans =>
              rw [List.nil_append, behind]
              cases span with
              | plain stretch => exact absurd (behind ▸ rfl) (whole stretch)
              | marked => rfl
      | cons d text =>
          have later (front back : List Char) (parts : d :: text = front ++ back) :
              back ≠ [] → ∀ mark : Mark, ¬ mark.Stands (back ++ rest) :=
            unmarked (c :: front) back (by rw [parts]; rfl)
          rw [ih (List.cons_ne_nil _ _) later]
          rfl

theorem Divided.eq_cut (divided : Divided s spans) : spans = cut s := by
  induction divided with
  | nil => rw [cut]
  | marked stands _ _ ih => rw [cut_marked stands, ih]
  | plain filled unmarked whole _ ih => rw [cut_plain filled unmarked (ih ▸ whole), ih]

/-- A span is returned as an element, which is made of what it captures: a stretch stays as it is,
and the text of a link that cannot be read stays as code or text. -/
inductive Returned : Span → Inline → Prop where
  | plain (text : List Char) : Returned (.plain text) (.text (String.ofList text))
  | symbol {name : List Char} {l : WrittenLink}
      (read : WrittenLink.parse (String.ofList name) = .ok l) :
      Returned (.marked (.symbol name)) (.link (.written l))
  | unreadSymbol {name : List Char} {cause : MalformedLink}
      (unread : WrittenLink.parse (String.ofList name) = .error cause) :
      Returned (.marked (.symbol name)) (.code (String.ofList name))
  | topic {target : List Char} {l : WrittenLink}
      (read : WrittenLink.parse (String.ofList target) = .ok l) :
      Returned (.marked (.topic target)) (.link (.written l))
  | unreadTopic {target : List Char} {cause : MalformedLink}
      (unread : WrittenLink.parse (String.ofList target) = .error cause) :
      Returned (.marked (.topic target)) (.text (String.ofList target))
  /-- A web address is not read any further. -/
  | web {text destination : List Char} {l : WrittenLink}
      (read : WrittenLink.parse (String.ofList destination) = .ok l) (web : l.isUrl = true) :
      Returned (.marked (.bracket text destination))
        (.link { destination := .url l.text, title := some (String.ofList text) })
  | bracket {text destination : List Char} {l : WrittenLink}
      (read : WrittenLink.parse (String.ofList destination) = .ok l) (page : l.isUrl = false) :
      Returned (.marked (.bracket text destination))
        (.link (.written l (some (String.ofList text))))
  | unreadBracket {text destination : List Char} {cause : MalformedLink}
      (unread : WrittenLink.parse (String.ofList destination) = .error cause) :
      Returned (.marked (.bracket text destination)) (.text (String.ofList text))
  | code (text : List Char) : Returned (.marked (.code text)) (.code (String.ofList text))

theorem returned_ofSpan (span : Span) : Returned span (Inline.ofSpan span) := by
  cases span with
  | plain text => exact .plain text
  | marked mark =>
      cases mark with
      | symbol name =>
          simp only [Inline.ofSpan, Inline.ofMark]
          split
          · exact .symbol ‹_›
          · exact .unreadSymbol ‹_›
      | topic target =>
          simp only [Inline.ofSpan, Inline.ofMark]
          split
          · exact .topic ‹_›
          · exact .unreadTopic ‹_›
      | bracket text destination =>
          simp only [Inline.ofSpan, Inline.ofMark]
          split
          · split
            · exact .web ‹_› ‹_›
            · rename_i read page
              exact .bracket read (Bool.eq_false_iff.mpr page)
          · exact .unreadBracket ‹_›
      | code text => exact .code text

theorem Divided.source_ne_nil (divided : Divided s spans) : ∀ span ∈ spans, span.source ≠ [] := by
  induction divided with
  | nil => exact fun span member => absurd member List.not_mem_nil
  | marked _ _ _ ih => exact List.forall_mem_cons.mpr ⟨Mark.source_ne_nil _, ih⟩
  | plain filled _ _ _ ih => exact List.forall_mem_cons.mpr ⟨filled, ih⟩

/-- The elements of running text stand, in order, for the spans of the one division of the text:
consecutive spans, none of them empty, which together are the text. -/
theorem ofText_divided (s : String) :
    ∃! spans, Divided s.toList spans ∧ spans.flatMap source = s.toList ∧
      (∀ span ∈ spans, span.source ≠ []) ∧ List.Forall₂ Returned spans (Inlines.ofText s) := by
  have divided := divided_cut s.toList
  refine ⟨cut s.toList, ⟨divided, divided.flatMap_source, divided.source_ne_nil, ?_⟩,
    fun others other => other.1.eq_cut⟩
  rw [Inlines.ofText, List.forall₂_map_right_iff, List.forall₂_same]
  exact fun span _ => returned_ofSpan span

-- No form matches at the first of three backticks, and one does at the second.
example : cut "a```b```".toList =
    [.plain ['a', Mark.tick], .marked (.symbol ['b']), .plain [Mark.tick]] := by
  cbv

end Span

end Concordance
