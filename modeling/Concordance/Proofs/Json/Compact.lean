import Mathlib
import Concordance.Proofs.Json.Text

/-! # JSON text without blanks

Values without numbers are told apart by their texts, whatever follows these: the first
character shows what kind of value it is, and literals, items and members end where
they close.
-/

namespace Concordance.Json

variable {u v : List Char}

/-- A text literal ends where it closes. -/
theorem quoted_append_inj {s t : String} (same : quoted s ++ u = quoted t ++ v) :
    s = t ∧ u = v := by
  rw [quoted_append, quoted_append] at same
  have read := congrArg textPieces (List.cons.inj same).2
  rw [textPieces_quoted, textPieces_quoted] at read
  obtain ⟨pieces, rest⟩ := Prod.mk.inj (Option.some.inj read)
  have joined := congrArg joinPieces? pieces
  rw [joinPieces?_pieceOf, joinPieces?_pieceOf] at joined
  exact ⟨String.toList_inj.mp (Option.some.inj joined), rest⟩

/-- The character that a value starts with. -/
def opening : Json → Char
  | array _ => '['
  | object _ => '\x7b'
  | string _ => '\x22'
  | bool true => 't'
  | bool false => 'f'
  | null | number _ | unreadable => 'n'

theorem exists_opening {j : Json} (textual : j.Textual) :
    ∃ s, compactChars j = opening j :: s := by
  cases j with
  | null => exact ⟨"ull".toList, by rw [compactChars]; rfl⟩
  | bool b =>
      cases b with
      | true => exact ⟨"rue".toList, by rw [compactChars]; rfl⟩
      | false => exact ⟨"alse".toList, by rw [compactChars]; rfl⟩
  | string s => exact ⟨_, by rw [compactChars]; rfl⟩
  | array items => exact ⟨_, by rw [compactChars]; rfl⟩
  | object members => exact ⟨_, by rw [compactChars]; rfl⟩
  | number n => exact absurd textual id
  | unreadable => exact absurd textual id

/-- Values of one kind; of truth values, the same one. -/
inductive Alike : Json → Json → Prop where
  | null : Alike null null
  | bool (b : Bool) : Alike (bool b) (bool b)
  | string (s t : String) : Alike (string s) (string t)
  | array (items others : List Json) : Alike (array items) (array others)
  | object (members others : List (String × Json)) : Alike (object members) (object others)

theorem alike_of_append {j k : Json} (one : j.Textual) (other : k.Textual)
    (same : compactChars j ++ u = compactChars k ++ v) : Alike j k := by
  obtain ⟨s, first⟩ := exists_opening one
  obtain ⟨t, second⟩ := exists_opening other
  rw [first, second] at same
  have opens : opening j = opening k := (List.cons.inj same).1
  -- Every pair of kinds either is one kind, or holds a number, or starts differently.
  rcases j with _ | (_ | _) | _ | _ | _ | _ | _ <;> rcases k with _ | (_ | _) | _ | _ | _ | _ | _ <;>
    first
    | constructor
    | exact absurd one id
    | exact absurd other id
    | exact absurd opens (by simp [opening])

theorem opening_ne_close (j : Json) : opening j ≠ ']' := by
  rcases j with _ | (_ | _) | _ | _ | _ | _ | _ <;> simp [opening]

/-- What stands behind an item: a comma before further items, and a bracket behind the last one. -/
def behindItem (items : List Json) (u : List Char) : List Char :=
  if items = [] then ']' :: u else ',' :: (compactItems items ++ ']' :: u)

theorem compactItems_cons (item : Json) (items : List Json) (u : List Char) :
    compactItems (item :: items) ++ ']' :: u = compactChars item ++ behindItem items u := by
  cases items <;> simp [compactItems, behindItem]

def behindMember (members : List (String × Json)) (u : List Char) : List Char :=
  if members = [] then '\x7d' :: u else ',' :: (compactMembers members ++ '\x7d' :: u)

theorem compactMembers_cons (name : String) (value : Json) (members : List (String × Json))
    (u : List Char) :
    compactMembers ((name, value) :: members) ++ '\x7d' :: u =
      quoted name ++ ':' :: (compactChars value ++ behindMember members u) := by
  cases members <;> simp [compactMembers, behindMember]

/-- Either nothing follows in both texts, or what follows the comma is the same. -/
theorem behind_inj {α : Type} {parts others : List α} [Decidable (parts = [])]
    [Decidable (others = [])] {close : Char} (apart : close ≠ ',') {u v s t : List Char}
    (same : (if parts = [] then close :: u else ',' :: s) =
      if others = [] then close :: v else ',' :: t) :
    parts = others ∧ u = v ∨ s = t := by
  split at same <;> split at same
  · rename_i last last'
    exact .inl ⟨last.trans last'.symm, (List.cons.inj same).2⟩
  · exact absurd (List.cons.inj same).1 apart
  · exact absurd (List.cons.inj same).1.symm apart
  · exact .inr (List.cons.inj same).2

-- The induction is on the first value. What follows the two texts stays general, since items and
-- members have their neighbours behind them.
mutual

/-- A value's text, whatever follows it, tells which value it is and where it ends. -/
theorem compactChars_append_inj {j k : Json} (one : j.Textual) (other : k.Textual)
    {u v : List Char} (same : compactChars j ++ u = compactChars k ++ v) : j = k ∧ u = v := by
  have alike := alike_of_append one other same
  cases j with
  | null =>
      cases alike with
      | null => exact ⟨rfl, List.append_cancel_left same⟩
  | bool b =>
      cases alike with
      | bool => exact ⟨rfl, List.append_cancel_left same⟩
  | string s =>
      cases alike with
      | string _ t =>
          rw [compactChars, compactChars] at same
          obtain ⟨rfl, rest⟩ := quoted_append_inj same
          exact ⟨rfl, rest⟩
  | array items =>
      cases alike with
      | array _ others =>
          simp only [compactChars, List.cons_append, List.append_assoc, List.nil_append] at same
          obtain ⟨rfl, rest⟩ := compactItems_append_inj one other (List.cons.inj same).2
          exact ⟨rfl, rest⟩
  | object members =>
      cases alike with
      | object _ others =>
          simp only [compactChars, List.cons_append, List.append_assoc, List.nil_append] at same
          obtain ⟨rfl, rest⟩ := compactMembers_append_inj one other (List.cons.inj same).2
          exact ⟨rfl, rest⟩
  | number n => exact absurd one id
  | unreadable => exact absurd one id
termination_by structural j

theorem compactItems_append_inj {items others : List Json} (one : TextualItems items)
    (other : TextualItems others) {u v : List Char}
    (same : compactItems items ++ ']' :: u = compactItems others ++ ']' :: v) :
    items = others ∧ u = v := by
  match items, others with
  | [], [] => exact ⟨rfl, (List.cons.inj same).2⟩
  | [], k :: others =>
      obtain ⟨s, first⟩ := exists_opening other.1
      rw [compactItems_cons, first] at same
      exact absurd (List.cons.inj same).1.symm (opening_ne_close k)
  | j :: items, [] =>
      obtain ⟨s, first⟩ := exists_opening one.1
      rw [compactItems_cons, first] at same
      exact absurd (List.cons.inj same).1 (opening_ne_close j)
  | j :: items, k :: others =>
      rw [compactItems_cons, compactItems_cons] at same
      obtain ⟨rfl, behind⟩ := compactChars_append_inj one.1 other.1 same
      rcases behind_inj (by decide) behind with ⟨rfl, rest⟩ | further
      · exact ⟨rfl, rest⟩
      · obtain ⟨rfl, rest⟩ := compactItems_append_inj one.2 other.2 further
        exact ⟨rfl, rest⟩
termination_by structural items

theorem compactMembers_append_inj {members others : List (String × Json)}
    (one : TextualMembers members) (other : TextualMembers others) {u v : List Char}
    (same : compactMembers members ++ '\x7d' :: u = compactMembers others ++ '\x7d' :: v) :
    members = others ∧ u = v := by
  match members, others with
  | [], [] => exact ⟨rfl, (List.cons.inj same).2⟩
  | [], (name, value) :: others =>
      rw [compactMembers_cons] at same
      exact absurd (List.cons.inj same).1 (by decide)
  | (name, value) :: members, [] =>
      rw [compactMembers_cons] at same
      exact absurd (List.cons.inj same).1 (by decide)
  | (name, value) :: members, (name', value') :: others =>
      rw [compactMembers_cons, compactMembers_cons] at same
      obtain ⟨rfl, named⟩ := quoted_append_inj same
      obtain ⟨rfl, behind⟩ := compactChars_append_inj one.1 other.1 (List.cons.inj named).2
      rcases behind_inj (by decide) behind with ⟨rfl, rest⟩ | further
      · exact ⟨rfl, rest⟩
      · obtain ⟨rfl, rest⟩ := compactMembers_append_inj one.2 other.2 further
        exact ⟨rfl, rest⟩
termination_by structural members

end

end Concordance.Json
