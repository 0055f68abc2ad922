import Mathlib
import Concordance.Json.Pointer
import Concordance.Proofs.Assoc
import Concordance.Proofs.Text.Cut

/-! # Places in JSON values

A pointer's text reads back as its tokens, and an index as its number. A frame is
a value with a hole at a place: whatever is done at the place is done in the hole
and leaves the rest of the value as it is.
-/

namespace Concordance.Pointer

theorem slash_not_mem_escape (token : List Char) : '/' ∉ escape token := by
  simp only [escape, List.mem_flatMap, not_exists, not_and]
  intro c _
  simp only [escapeChar, beq_iff_eq]
  split
  · decide
  · split
    · decide
    · rename_i notSlash
      simpa using Ne.symm notSlash

theorem unescape_escape (token : List Char) : unescape (escape token) = token := by
  induction token with
  | nil => simp [escape, unescape]
  | cons c token ih =>
      simp only [escape] at ih ⊢
      rw [List.flatMap_cons]
      by_cases tilde : c = '~'
      · simp [escapeChar, tilde, unescape, ih]
      · by_cases slash : c = '/'
        · simp [escapeChar, slash, unescape, ih]
        · simp [escapeChar, tilde, slash, unescape, ih]

theorem text_toList (tokens : List String) :
    (text tokens).toList = tokens.flatMap fun token => '/' :: escape token.toList := by
  simp [text]

theorem tokens?_text (tokens : List String) : tokens? (text tokens).toList = some tokens := by
  rw [text_toList]
  cases tokens with
  | nil => rfl
  | cons token tokens =>
      have pieces := Text.splitOn_flatMap_cons (fun t : String => escape t.toList)
        (fun t => slash_not_mem_escape t.toList) token tokens
      simp only [List.flatMap_cons, List.cons_append, tokens?, pieces, List.map_map,
        Option.some.injEq]
      conv_rhs => rw [← List.map_id (token :: tokens)]
      apply List.map_congr_left
      intro t _
      simp [unescape_escape]

theorem cutLast?_text (place : List String) (token : String) :
    Text.cutLast? '/' (text (place ++ [token])).toList =
      some ((text place).toList, escape token.toList) := by
  have last : (text (place ++ [token])).toList =
      (text place).toList ++ '/' :: escape token.toList := by
    simp [text_toList]
  rw [last, Text.cutLast?_append (slash_not_mem_escape token.toList)]

theorem digitsIndex?_toDigits {n : Nat} (bound : n ≤ largestIndex) :
    digitsIndex? (Nat.toDigits 10 n) = some n := by
  have digits : (Nat.toDigits 10 n).all Char.isDigit = true :=
    List.all_eq_true.mpr fun c member =>
      Nat.isDigit_of_mem_toDigits (by decide) (by decide) member
  have value : (Nat.toDigits 10 n).foldl (fun m c => m * 10 + (c.toNat - '0'.toNat)) 0 = n := by
    simpa [Nat.ofDigitChars, Nat.mul_comm] using Nat.ofDigitChars_ten_toDigits (n := n)
  have written : (Nat.toDigits 10 n).isEmpty = false := by
    simp
  simp only [digitsIndex?, written, digits, Bool.not_true, Bool.or_self, Bool.false_eq_true,
    if_false, value, bound, if_true]

theorem toDigits_head_of_pos {n : Nat} (positive : 0 < n) (rest : List Char) :
    Nat.toDigits 10 n ≠ '0' :: rest := by
  induction n using Nat.strongRecOn generalizing rest with
  | ind n ih =>
      intro written
      by_cases small : n < 10
      · rw [Nat.toDigits_of_lt_base small] at written
        interval_cases n <;> simp_all [Nat.digitChar]
      · rw [Nat.toDigits_of_base_le (by decide) (by omega)] at written
        cases first : Nat.toDigits 10 (n / 10) with
        | nil => exact Nat.toDigits_ne_nil first
        | cons c digits =>
            rw [first, List.cons_append, List.cons.injEq] at written
            exact ih (n / 10) (by omega) (by omega) digits (by rw [first, written.1])

theorem index?_toString {n : Nat} (bound : n ≤ largestIndex) : index? (toString n) = some n := by
  have written : (toString n).toList = Nat.toDigits 10 n := by simp
  rw [index?, written]
  split
  · rename_i other rest same
    cases n with
    | zero => simp at same
    | succ n => exact absurd same (toDigits_head_of_pos (Nat.succ_pos n) _)
  · exact digitsIndex?_toDigits bound

theorem lastIndex?_toString {n : Nat} (bound : n ≤ largestIndex) :
    lastIndex? (toString n) = some n := by
  have written : (toString n).toList = Nat.toDigits 10 n := by simp
  rw [lastIndex?, written]
  split
  · rename_i digits same
    have digit : ('+').isDigit = true :=
      Nat.isDigit_of_mem_toDigits (b := 10) (n := n) (by decide) (by decide)
        (same ▸ List.mem_cons_self)
    exact absurd digit (by decide)
  · exact digitsIndex?_toDigits bound

theorem digitChar_of_isDigit {c : Char} (digit : c.isDigit = true) :
    Nat.digitChar (c.toNat - '0'.toNat) = c ∧ c.toNat - '0'.toNat < 10 := by
  obtain ⟨low, high⟩ : 48 ≤ c.toNat ∧ c.toNat ≤ 57 := by
    simpa [Char.isDigit, UInt32.le_iff_toNat_le] using digit
  have same : c = Char.ofNat c.toNat := by simp
  generalize c.toNat = n at *
  subst same
  interval_cases n <;> decide

theorem digitsIndex?_eq_some {digits : List Char} {n : Nat} (read : digitsIndex? digits = some n) :
    digits ≠ [] ∧ (∀ c ∈ digits, c.isDigit = true) ∧ Nat.ofDigitChars 10 digits 0 = n ∧
      n ≤ largestIndex := by
  simp only [digitsIndex?] at read
  split at read
  · cases read
  · rename_i written
    split at read
    · rename_i bound
      cases read
      simp only [Bool.or_eq_true, Bool.not_eq_true', not_or, Bool.not_eq_false] at written
      refine ⟨by simpa using written.1, List.all_eq_true.mp written.2, ?_, bound⟩
      simp [Nat.ofDigitChars_eq_foldl, Nat.mul_comm]
    · cases read

theorem toDigits_ofDigitChars (digits : List Char) (nonempty : digits ≠ [])
    (each : ∀ c ∈ digits, c.isDigit = true) (plain : ∀ c rest, digits ≠ '0' :: c :: rest) :
    Nat.toDigits 10 (Nat.ofDigitChars 10 digits 0) = digits := by
  induction digits using List.reverseRecOn with
  | nil => exact absurd rfl nonempty
  | append_singleton digits c ih =>
      obtain ⟨last, small⟩ := digitChar_of_isDigit (each c (by simp))
      rw [Nat.ofDigitChars_append, Nat.ofDigitChars_cons, Nat.ofDigitChars_nil]
      cases digits with
      | nil =>
          rw [Nat.ofDigitChars_nil, Nat.mul_zero, Nat.zero_add, Nat.toDigits_of_lt_base small, last]
          rfl
      | cons first digits =>
          have notZero : first ≠ '0' := by
            rintro rfl
            cases digits with
            | nil => exact plain c [] rfl
            | cons d digits => exact plain d (digits ++ [c]) rfl
          have before := ih (List.cons_ne_nil _ _)
            (fun d member => each d (List.mem_append_left _ member))
            (fun d rest same => notZero (List.cons.inj same).1)
          have positive : 0 < Nat.ofDigitChars 10 (first :: digits) 0 := by
            refine Nat.pos_of_ne_zero fun zero => ?_
            rw [zero, Nat.toDigits_zero] at before
            exact notZero (List.cons.inj before).1.symm
          rw [Nat.toDigits_of_base_le (by decide) (by omega),
            Nat.mul_add_div (by decide), Nat.mul_add_mod, Nat.div_eq_of_lt small,
            Nat.mod_eq_of_lt small, Nat.add_zero, before, last]

/-- On the way to a place an index is read from its own text alone. -/
theorem index?_eq_some_iff {token : String} {n : Nat} :
    index? token = some n ↔ token = toString n ∧ n ≤ largestIndex := by
  constructor
  · intro read
    rw [index?] at read
    split at read
    · cases read
    · rename_i plain
      obtain ⟨nonempty, each, value, bound⟩ := digitsIndex?_eq_some read
      have digits := toDigits_ofDigitChars token.toList nonempty each plain
      rw [value] at digits
      exact ⟨String.toList_injective (by simpa using digits.symm), bound⟩
  · rintro ⟨rfl, bound⟩
    exact index?_toString bound

theorem lastIndex?_of_index? {token : String} {n : Nat} (read : index? token = some n) :
    lastIndex? token = some n := by
  obtain ⟨rfl, bound⟩ := index?_eq_some_iff.mp read
  exact lastIndex?_toString bound

theorem lastIndex?_le {token : String} {n : Nat} (read : lastIndex? token = some n) :
    n ≤ largestIndex := by
  rw [lastIndex?] at read
  split at read <;> exact (digitsIndex?_eq_some read).2.2.2

theorem eq_empty_of_tokens? {pointer : String} (read : tokens? pointer.toList = some []) :
    pointer = "" := by
  rw [tokens?.eq_def] at read
  split at read
  · rename_i empty
    exact String.toList_injective empty
  · simp at read
  · cases read

theorem tokens?_of_cutLast? {pointer parent last : List Char}
    (cut : Text.cutLast? '/' pointer = some (parent, last)) :
    tokens? pointer = (tokens? parent).map (· ++ [String.ofList (unescape last)]) := by
  obtain ⟨rfl, absent⟩ := Text.cutLast?_eq_some cut
  have alone : last.splitOn '/' = [last] := List.splitOn_eq_singleton absent
  cases parent with
  | nil => simp [tokens?, alone]
  | cons c parent =>
      by_cases slash : c = '/'
      · subst slash
        simp [tokens?, List.splitOn_append_cons_self, alone]
      · simp [tokens?, slash]

theorem tokens?_of_uncut {pointer : List Char} (uncut : Text.cutLast? '/' pointer = none)
    {tokens : List String} (read : tokens? pointer = some tokens) : pointer = [] := by
  cases pointer with
  | nil => rfl
  | cons c pointer =>
      rw [Text.cutLast?, Option.map_eq_none_iff] at uncut
      have absent := Text.not_mem_of_cut? uncut
      have slash : c ≠ '/' := by
        rintro rfl
        simp at absent
      simp [tokens?, slash] at read

theorem edit_append {ε : Type} (missing : ε) (f : Json → Except ε Json) (place rest : List String)
    (j : Json) : edit missing f (place ++ rest) j = edit missing (edit missing f rest) place j := by
  induction place generalizing j with
  | nil => rfl
  | cons token place ih =>
      have same : edit missing f (place ++ rest) = edit missing (edit missing f rest) place :=
        funext ih
      cases j with
      | object members => simp only [List.cons_append, edit, same]
      | array items => simp only [List.cons_append, edit, same]
      | null | bool | number | string | unreadable => rfl

/-- A value with a hole at a place. -/
def Frame (place : List String) (fill : Json → Json) : Prop :=
  ∀ {ε : Type} (missing : ε) (f : Json → Except ε Json) (x : Json),
    edit missing f place (fill x) = (f x).map fill

theorem Frame.root : Frame [] id := by
  intro ε missing f x
  simp only [edit, id_eq]
  cases f x <;> rfl

theorem editMember_append {ε : Type} (missing : ε) (f : Json → Except ε Json) {name : String}
    (front rest : List (String × Json)) (x : Json) (absent : ∀ y, (name, y) ∉ front) :
    editMember missing f name (front ++ (name, x) :: rest) =
      (f x).map fun y => front ++ (name, y) :: rest := by
  induction front with
  | nil => simp [editMember]
  | cons member front ih =>
      obtain ⟨k, v⟩ := member
      have different : k ≠ name := fun same => absent v (by simp [same])
      have later := ih fun y member => absent y (List.mem_cons_of_mem _ member)
      simp only [List.cons_append, editMember, beq_iff_eq, different, if_false, later]
      cases f x <;> rfl

theorem editItem_append {ε : Type} (missing : ε) (f : Json → Except ε Json) (front rest : List Json)
    (x : Json) : editItem missing f front.length (front ++ x :: rest) =
      (f x).map fun y => front ++ y :: rest := by
  induction front with
  | nil => rfl
  | cons item front ih =>
      simp only [List.length_cons, List.cons_append, editItem, ih]
      cases f x <;> rfl

theorem Frame.member {place : List String} {fill : Json → Json} (frame : Frame place fill)
    {name : String} (front rest : List (String × Json)) (absent : ∀ y, (name, y) ∉ front) :
    Frame (place ++ [name]) fun x => fill (.object (front ++ (name, x) :: rest)) := by
  intro ε missing f x
  have inner : edit missing f [name] = fun j => edit missing f [name] j := rfl
  rw [edit_append, frame]
  simp only [edit, editMember_append missing _ front rest x absent]
  cases f x <;> rfl

theorem Frame.item {place : List String} {fill : Json → Json} (frame : Frame place fill)
    (front rest : List Json) (bound : front.length ≤ largestIndex) :
    Frame (place ++ [toString front.length]) fun x => fill (.array (front ++ x :: rest)) := by
  intro ε missing f x
  rw [edit_append, frame]
  simp only [edit, index?_toString bound, editItem_append]
  cases f x <;> rfl

end Concordance.Pointer
