import Mathlib
import Concordance.Json.Printer
import Concordance.Json.Reader

/-! # JSON text is read as it was written

A value without numbers, laid out over lines, is read as that value. Texts come back
character by character, whatever was escaped; items and members are read up to the
mark after them, whatever text follows.
-/

namespace Concordance.Json

section Literals

variable {c : Char} {rest : List Char}

/-- Control characters that are escaped by a letter. -/
def lettered : List Char := ['\x08', '\t', '\n', '\x0c', '\r']

/-- How a character of a text is read back: only control characters without a letter of their own
are written as numbers. -/
def pieceOf (c : Char) : TextPiece :=
  if c.toNat < 0x20 ∧ c ∉ lettered then .numbered c.toNat else .plain c

theorem hexUnit?_control {n : Nat} (control : n < 0x20) :
    hexUnit? '0' '0' (hexChar (n / 16)) (hexChar (n % 16)) = some n := by
  have all : ∀ n < 0x20, hexUnit? '0' '0' (hexChar (n / 16)) (hexChar (n % 16)) = some n := by
    decide +kernel
  exact all n control

theorem textPieces_letter {e : Char} (notNumber : e ≠ 'u') (stands : letterEscape? e = some c) :
    textPieces ('\x5c' :: e :: rest) =
      (textPieces rest).map fun (pieces, rest) => (.plain c :: pieces, rest) := by
  rw [textPieces]
  · rw [stands]
    cases textPieces rest <;> rfl
  · exact fun _ _ _ _ _ same => absurd same notNumber

theorem textPieces_plain (quote : c ≠ '\x22') (backslash : c ≠ '\x5c')
    (printed : ¬ c.toNat < 0x20) :
    textPieces (c :: rest) =
      (textPieces rest).map fun (pieces, rest) => (.plain c :: pieces, rest) := by
  rw [textPieces]
  · rw [if_neg printed]
    cases textPieces rest <;> rfl
  · exact quote
  · exact fun _ _ _ _ _ same => absurd same backslash
  · exact fun _ _ same => absurd same backslash

theorem textPieces_escapeChar (c : Char) (rest : List Char) :
    textPieces (escapeChar c ++ rest) =
      (textPieces rest).map fun (pieces, rest) => (pieceOf c :: pieces, rest) := by
  by_cases special : c ∈ '\x22' :: '\x5c' :: lettered
  · simp only [lettered, List.mem_cons, List.not_mem_nil, or_false] at special
    rcases special with rfl | rfl | rfl | rfl | rfl | rfl | rfl <;>
      exact textPieces_letter (by decide) rfl
  · simp only [List.mem_cons, not_or] at special
    obtain ⟨quote, backslash, unlettered⟩ := special
    have others := unlettered
    simp only [lettered, List.mem_cons, List.not_mem_nil, or_false, not_or] at others
    by_cases control : c.toNat < 0x20
    · have escaped : escapeChar c =
          ['\x5c', 'u', '0', '0', hexChar (c.toNat / 16), hexChar (c.toNat % 16)] := by
        simp [escapeChar, quote, backslash, others, control]
      rw [escaped, pieceOf, if_pos ⟨control, unlettered⟩]
      simp only [List.cons_append, List.nil_append, textPieces, hexUnit?_control control]
      cases textPieces rest <;> rfl
    · have plain : escapeChar c = [c] := by
        simp [escapeChar, quote, backslash, others, control]
      rw [plain, pieceOf, if_neg fun both => control both.1]
      exact textPieces_plain quote backslash control

theorem textPieces_quoted (s rest : List Char) :
    textPieces (s.flatMap escapeChar ++ '\x22' :: rest) = some (s.map pieceOf, rest) := by
  induction s with
  | nil => rw [List.flatMap_nil, List.nil_append, textPieces]; rfl
  | cons c s ih =>
      rw [List.flatMap_cons, List.append_assoc, textPieces_escapeChar, ih]
      rfl

theorem joinPieces?_cons (c : Char) (s : List Char) :
    joinPieces? (pieceOf c :: s.map pieceOf) = (joinPieces? (s.map pieceOf)).map (c :: ·) := by
  rw [pieceOf]
  split
  · rename_i control
    have high : isHighHalf c.toNat = false := by simp [isHighHalf]; omega
    have low : isLowHalf c.toNat = false := by simp [isLowHalf]; omega
    cases s with
    | nil => simp [joinPieces?, high, low]
    | cons d s =>
        simp only [List.map_cons]
        cases pieceOf d <;> simp [joinPieces?, high, low]
  · rw [joinPieces?]

theorem joinPieces?_pieceOf (s : List Char) : joinPieces? (s.map pieceOf) = some s := by
  induction s with
  | nil => rfl
  | cons c s ih => rw [List.map_cons, joinPieces?_cons, ih]; rfl

end Literals

mutual

/-- Values without numbers, of which not all are read as they were written. -/
def Textual : Json → Prop
  | array items => TextualItems items
  | object members => TextualMembers members
  | null | bool _ | string _ => True
  | number _ | unreadable => False

def TextualItems : List Json → Prop
  | [] => True
  | item :: items => item.Textual ∧ TextualItems items

def TextualMembers : List (String × Json) → Prop
  | [] => True
  | (_, value) :: members => value.Textual ∧ TextualMembers members

end

@[simp] theorem textual_string (s : String) : (string s).Textual := trivial

@[simp] theorem textual_optional (s : Option String) : (optional s).Textual := by
  cases s <;> trivial

@[simp] theorem textual_array {items : List Json} :
    (array items).Textual ↔ ∀ item ∈ items, item.Textual := by
  rw [Textual]
  induction items with
  | nil => simp [TextualItems]
  | cons item items ih => simp [TextualItems, ih]

@[simp] theorem textual_object {members : List (String × Json)} :
    (object members).Textual ↔ ∀ member ∈ members, member.2.Textual := by
  rw [Textual]
  induction members with
  | nil => simp [TextualMembers]
  | cons member members ih => simp [TextualMembers, ih]

section Layout

variable {depth : Nat} {rest : List Char}

theorem skipSpace_cons {c : Char} (mark : isSpace c = false) (s : List Char) :
    skipSpace (c :: s) = c :: s :=
  List.dropWhile_cons_of_neg (by simp [mark])

theorem skipSpace_newLine (depth : Nat) (s : List Char) :
    skipSpace (newLine depth ++ s) = skipSpace s := by
  have blanks : ∀ c ∈ newLine depth, isSpace c = true := by
    intro c member
    rcases List.mem_cons.mp member with rfl | member
    · rfl
    · rw [List.eq_of_mem_replicate member]
      rfl
  exact List.dropWhile_append_of_pos blanks

def openers : List Char := ['[', '\x7b', '\x22', 't', 'f', 'n']

theorem exists_opener {j : Json} (textual : j.Textual) (depth : Nat) :
    ∃ c s, prettyChars depth j = c :: s ∧ c ∈ openers := by
  cases j with
  | null => exact ⟨'n', "ull".toList, by rw [prettyChars]; rfl, by decide⟩
  | bool b =>
      cases b with
      | true => exact ⟨'t', "rue".toList, by rw [prettyChars]; rfl, by decide⟩
      | false => exact ⟨'f', "alse".toList, by rw [prettyChars]; rfl, by decide⟩
  | string s => exact ⟨'\x22', _, by rw [prettyChars]; rfl, by decide⟩
  | array items =>
      cases items with
      | nil => exact ⟨'[', [']'], by rw [prettyChars]; rfl, by decide⟩
      | cons item items => exact ⟨'[', _, by rw [prettyChars]; rfl, by decide⟩
  | object members =>
      cases members with
      | nil => exact ⟨'\x7b', ['\x7d'], by rw [prettyChars], by decide⟩
      | cons m members => exact ⟨'\x7b', _, by rw [prettyChars]; rfl, by decide⟩
  | number n => exact absurd textual id
  | unreadable => exact absurd textual id

theorem exists_opener_items {item : Json} {items : List Json}
    (textual : TextualItems (item :: items)) (depth : Nat) :
    ∃ c s, prettyItems depth (item :: items) = c :: s ∧ c ∈ openers := by
  obtain ⟨c, s, written, opener⟩ := exists_opener textual.1 depth
  cases items with
  | nil => exact ⟨c, s, by rw [prettyItems, written], opener⟩
  | cons next items =>
      exact ⟨c, _, by simp only [prettyItems, written, List.cons_append]; rfl, opener⟩

theorem exists_quote_members (m : String × Json) (members : List (String × Json)) (depth : Nat) :
    ∃ s, prettyMembers depth (m :: members) = '\x22' :: s := by
  obtain ⟨name, value⟩ := m
  cases members with
  | nil => exact ⟨_, by rw [prettyMembers, quoted]; rfl⟩
  | cons next members => exact ⟨_, by simp only [prettyMembers, quoted, List.cons_append]; rfl⟩

theorem opener_cases {c : Char} (opener : c ∈ openers) :
    isSpace c = false ∧ c ≠ ']' ∧ c ≠ '\x7d' := by
  simp only [openers, List.mem_cons, List.not_mem_nil, or_false] at opener
  rcases opener with rfl | rfl | rfl | rfl | rfl | rfl <;> decide

theorem readValue_array (fuel : Nat) (s : List Char) :
    readValue (fuel + 1) ('[' :: s) =
      match skipSpace s with
      | ']' :: rest => some (.array [], rest)
      | rest => (readItems fuel rest).map fun (items, rest) => (.array items, rest) := by
  rw [readValue, skipSpace_cons (by decide)]
  rfl

theorem readValue_object (fuel : Nat) (s : List Char) :
    readValue (fuel + 1) ('\x7b' :: s) =
      match skipSpace s with
      | '\x7d' :: rest => some (.object [], rest)
      | rest => (readMembers fuel rest).map fun (members, rest) => (ofMembers members, rest) := by
  rw [readValue, skipSpace_cons (by decide)]
  rfl

theorem readValue_items {c : Char} (opener : c ∈ openers) (fuel : Nat) (s : List Char) :
    readValue (fuel + 1) ('[' :: (newLine depth ++ c :: s)) =
      (readItems fuel (c :: s)).map fun (items, rest) => (.array items, rest) := by
  obtain ⟨mark, nonempty, _⟩ := opener_cases opener
  rw [readValue_array, skipSpace_newLine, skipSpace_cons mark]
  split
  · rename_i same
    cases same
    exact absurd rfl nonempty
  · rfl

theorem readValue_members (fuel : Nat) (s : List Char) :
    readValue (fuel + 1) ('\x7b' :: (newLine depth ++ '\x22' :: s)) =
      (readMembers fuel ('\x22' :: s)).map fun (members, rest) => (ofMembers members, rest) := by
  rw [readValue_object, skipSpace_newLine, skipSpace_cons (by decide)]
  rfl

theorem ofMembers_some (members : List (String × Json)) :
    ofMembers (members.map fun m => (some m.1, m.2)) = .object members := by
  have all : (members.map fun m => (some m.1, m.2)).mapM
      (fun m : Option String × Json => m.1.map fun name => (name, m.2)) = some members := by
    induction members with
    | nil => rfl
    | cons m members ih => simp [ih]
  rw [ofMembers, all]

theorem quoted_append (s : String) (rest : List Char) :
    quoted s ++ rest = '\x22' :: (s.toList.flatMap escapeChar ++ '\x22' :: rest) := by
  simp [quoted]

theorem readValue_quoted (fuel : Nat) (s : String) :
    readValue (fuel + 1) (quoted s ++ rest) = some (.string s, rest) := by
  rw [quoted_append, readValue, skipSpace_cons (by decide)]
  simp [textPieces_quoted, joinPieces?_pieceOf]

theorem readValue_skipSpace (fuel : Nat) (s : List Char) :
    readValue fuel (skipSpace s) = readValue fuel s := by
  cases fuel with
  | zero => rw [readValue, readValue]
  | succ fuel =>
      have again : skipSpace (skipSpace s) = skipSpace s := List.dropWhile_idempotent isSpace s
      rw [readValue, again, readValue]

theorem readValue_blank (fuel : Nat) (s : List Char) :
    readValue fuel (' ' :: s) = readValue fuel s := by
  rw [← readValue_skipSpace, ← readValue_skipSpace fuel s]
  rfl

theorem readItems_newLine (depth fuel : Nat) (s : List Char) :
    readItems fuel (newLine depth ++ s) = readItems fuel s := by
  cases fuel with
  | zero => rw [readItems, readItems]
  | succ fuel =>
      have same : readValue fuel (newLine depth ++ s) = readValue fuel s := by
        rw [← readValue_skipSpace, skipSpace_newLine, readValue_skipSpace]
      rw [readItems, same, readItems]

theorem readMembers_newLine (depth fuel : Nat) (s : List Char) :
    readMembers fuel (newLine depth ++ s) = readMembers fuel s := by
  cases fuel with
  | zero => rw [readMembers, readMembers]
  | succ fuel => rw [readMembers, skipSpace_newLine, readMembers]

theorem readItems_comma {item : Json} {s after : List Char} {fuel : Nat}
    (read : readValue fuel s = some (item, ',' :: after)) :
    readItems (fuel + 1) s =
      (readItems fuel after).map fun (items, rest) => (item :: items, rest) := by
  rw [readItems, read]
  simp only [Option.bind_eq_bind, Option.bind_some,
    skipSpace_cons (show isSpace ',' = false by decide)]
  cases readItems fuel after <;> rfl

theorem readItems_close {item : Json} {s : List Char} {fuel : Nat}
    (read : readValue fuel s = some (item, newLine depth ++ ']' :: rest)) :
    readItems (fuel + 1) s = some ([item], rest) := by
  rw [readItems, read]
  simp only [Option.bind_eq_bind, Option.bind_some, skipSpace_newLine,
    skipSpace_cons (show isSpace ']' = false by decide)]

theorem readMembers_comma {value : Json} {s after : List Char} {fuel : Nat} (name : String)
    (read : readValue fuel s = some (value, ',' :: after)) :
    readMembers (fuel + 1) (quoted name ++ ':' :: ' ' :: s) =
      (readMembers fuel after).map fun (members, rest) =>
        ((some name, value) :: members, rest) := by
  rw [quoted_append, readMembers, skipSpace_cons (by decide)]
  simp only [Option.bind_eq_bind, Option.bind_some, textPieces_quoted, joinPieces?_pieceOf,
    skipSpace_cons (show isSpace ':' = false by decide), readValue_blank, read,
    skipSpace_cons (show isSpace ',' = false by decide)]
  cases readMembers fuel after <;> simp

theorem readMembers_close {value : Json} {s : List Char} {fuel : Nat} (name : String)
    (read : readValue fuel s = some (value, newLine depth ++ '\x7d' :: rest)) :
    readMembers (fuel + 1) (quoted name ++ ':' :: ' ' :: s) =
      some ([(some name, value)], rest) := by
  rw [quoted_append, readMembers, skipSpace_cons (by decide)]
  simp only [Option.bind_eq_bind, Option.bind_some, textPieces_quoted, joinPieces?_pieceOf,
    skipSpace_cons (show isSpace ':' = false by decide), readValue_blank, read, skipSpace_newLine,
    skipSpace_cons (show isSpace '\x7d' = false by decide)]
  simp

-- The induction is on the value. Fuel for the length of its own text is enough, and what follows
-- that text stays general, since items and members are read with their neighbours behind them.
mutual

theorem readValue_pretty {j : Json} (textual : j.Textual) (depth : Nat) (rest : List Char)
    {fuel : Nat} (enough : (prettyChars depth j).length ≤ fuel) :
    readValue fuel (prettyChars depth j ++ rest) = some (j, rest) := by
  have start := exists_opener textual depth
  obtain ⟨fuel, rfl⟩ : ∃ n, fuel = n + 1 := by
    obtain ⟨c, s, written, _⟩ := start
    rw [written, List.length_cons] at enough
    exact ⟨fuel - 1, by omega⟩
  cases j with
  | null => rw [prettyChars]; rfl
  | bool b => cases b <;> (rw [prettyChars]; rfl)
  | string s => rw [prettyChars]; exact readValue_quoted fuel s
  | array items =>
      cases items with
      | nil => rw [prettyChars]; rfl
      | cons item items =>
          have below : (prettyItems (depth + 1) (item :: items)).length < fuel := by
            simp only [prettyChars, List.length_append, List.length_cons] at enough
            omega
          obtain ⟨c, s, written, opener⟩ := exists_opener_items textual (depth + 1)
          have read := readItems_pretty textual (by simp) (depth + 1) depth rest below
          simp only [prettyChars, List.cons_append, List.append_assoc, List.nil_append]
          rw [written, List.cons_append] at read ⊢
          rw [readValue_items opener, read]
          rfl
  | object members =>
      cases members with
      | nil => rw [prettyChars]; rfl
      | cons m members =>
          have below : (prettyMembers (depth + 1) (m :: members)).length < fuel := by
            simp only [prettyChars, List.length_append, List.length_cons] at enough
            omega
          obtain ⟨s, written⟩ := exists_quote_members m members (depth + 1)
          have read := readMembers_pretty textual (by simp) (depth + 1) depth rest below
          simp only [prettyChars, List.cons_append, List.append_assoc, List.nil_append]
          rw [written, List.cons_append] at read ⊢
          rw [readValue_members, read, Option.map_some]
          exact congrArg (fun j => some (j, rest)) (ofMembers_some (m :: members))
  | number n => exact absurd textual id
  | unreadable => exact absurd textual id
termination_by structural j

theorem readItems_pretty {items : List Json} (textual : TextualItems items) (nonempty : items ≠ [])
    (depth outer : Nat) (rest : List Char) {fuel : Nat}
    (enough : (prettyItems depth items).length < fuel) :
    readItems fuel (prettyItems depth items ++ (newLine outer ++ ']' :: rest)) =
      some (items, rest) := by
  obtain ⟨fuel, rfl⟩ : ∃ n, fuel = n + 1 := ⟨fuel - 1, by omega⟩
  match items with
  | [item] =>
    rw [prettyItems] at enough ⊢
    exact readItems_close (readValue_pretty textual.1 depth _ (by omega))
  | item :: next :: items =>
    simp only [prettyItems, List.length_append, List.length_cons] at enough ⊢
    have first := readValue_pretty textual.1 depth (',' :: (newLine depth ++
      (prettyItems depth (next :: items) ++ (newLine outer ++ ']' :: rest))))
      (show _ ≤ fuel by omega)
    have others := readItems_pretty textual.2 (by simp) depth outer rest (show _ < fuel by omega)
    simp only [List.append_assoc, List.cons_append]
    rw [readItems_comma first, readItems_newLine, others]
    rfl
termination_by structural items

theorem readMembers_pretty {members : List (String × Json)} (textual : TextualMembers members)
    (nonempty : members ≠ []) (depth outer : Nat) (rest : List Char) {fuel : Nat}
    (enough : (prettyMembers depth members).length < fuel) :
    readMembers fuel (prettyMembers depth members ++ (newLine outer ++ '\x7d' :: rest)) =
      some (members.map fun m => (some m.1, m.2), rest) := by
  obtain ⟨fuel, rfl⟩ : ∃ n, fuel = n + 1 := ⟨fuel - 1, by omega⟩
  match members with
  | [(name, value)] =>
    simp only [prettyMembers, List.length_append, List.length_cons] at enough ⊢
    have read := readValue_pretty textual.1 depth (newLine outer ++ '\x7d' :: rest)
      (show _ ≤ fuel by omega)
    simp only [List.append_assoc, List.cons_append]
    rw [readMembers_close name read]
    rfl
  | (name, value) :: next :: members =>
    simp only [prettyMembers, List.length_append, List.length_cons] at enough ⊢
    have first := readValue_pretty textual.1 depth (',' :: (newLine depth ++
      (prettyMembers depth (next :: members) ++ (newLine outer ++ '\x7d' :: rest))))
      (show _ ≤ fuel by omega)
    have others := readMembers_pretty textual.2 (by simp) depth outer rest
      (show _ < fuel by omega)
    simp only [List.append_assoc, List.cons_append]
    rw [readMembers_comma name first, readMembers_newLine, others]
    rfl
termination_by structural members

end

end Layout

/-- A text is read as the value it was written from. -/
theorem parse?_pretty {j : Json} (textual : j.Textual) (blanks : List Char)
    (blank : ∀ c ∈ blanks, isSpace c = true) :
    parse? (j.pretty ++ String.ofList blanks) = some j := by
  have text : (j.pretty ++ String.ofList blanks).toList = prettyChars 0 j ++ blanks := by
    simp [pretty]
  have enough : (prettyChars 0 j).length ≤ 2 * (prettyChars 0 j ++ blanks).length + 2 := by
    rw [List.length_append]
    omega
  have rest : skipSpace blanks = [] := List.dropWhile_eq_nil_iff.mpr blank
  simp only [parse?, text]
  rw [readValue_pretty textual 0 blanks enough]
  simp only [rest]
  rfl

end Concordance.Json
