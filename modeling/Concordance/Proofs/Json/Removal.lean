import Mathlib
import Concordance.Json.Patch
import Concordance.Proofs.Json.Value

/-! # Taking parts out of JSON values

A change is made at a slot of the value: a member of an object or an item of an array,
below the slots that the pointer's tokens lead through. Taking the slot out leaves what
stands beside it. A removal finds a slot wherever a replacement does, and besides it reads
an index with a sign or with zeros before it, which a replacement does not.
-/

namespace Concordance

/-- A part of a value, with what stands before and after it. -/
inductive Slot where
  | item (front rest : List Json)
  | member (front : List (String × Json)) (name : String) (rest : List (String × Json))

namespace Slot

/-- The value with something in the slot. -/
def fill (x : Json) : Slot → Json
  | item front rest => .array (front ++ x :: rest)
  | member front name rest => .object (front ++ (name, x) :: rest)

def without : Slot → Json
  | item front rest => .array (front ++ rest)
  | member front _ rest => .object (front ++ rest)

/-- The value that slots lead through, each within the one before. -/
def plug : List Slot → Json → Json
  | [], x => x
  | slot :: slots, x => slot.fill (plug slots x)

/-- The token names the slot on the way to a place. -/
def Named (token : String) : Slot → Prop
  | item front _ => Pointer.index? token = some front.length
  | member front name _ => name = token ∧ name ∉ Assoc.keys front

/-- The token names the slot as the last token of a removal. -/
def NamedLast (token : String) : Slot → Prop
  | item front _ => Pointer.lastIndex? token = some front.length
  | member front name _ => name = token ∧ name ∉ Assoc.keys front

theorem Named.last {token : String} {slot : Slot} (named : slot.Named token) :
    slot.NamedLast token := by
  cases slot with
  | item front rest => exact Pointer.lastIndex?_of_index? named
  | member front name rest => exact named

end Slot

namespace Pointer

open Slot (plug)

section Edit

variable {ε α β : Type} {missing : ε} {f : Json → Except ε Json}

theorem map_eq_ok_iff {x : Except ε α} {g : α → β} {b : β} :
    x.map g = .ok b ↔ ∃ a, x = .ok a ∧ g a = b := by
  cases x <;> simp [Except.map]

theorem editItem_eq_ok {n : Nat} {items after : List Json}
    (edited : editItem missing f n items = .ok after) :
    ∃ front x rest y, items = front ++ x :: rest ∧ front.length = n ∧ f x = .ok y ∧
      after = front ++ y :: rest := by
  induction items generalizing n after with
  | nil => cases n <;> cases edited
  | cons item items ih =>
      cases n with
      | zero =>
          obtain ⟨y, made, rfl⟩ := map_eq_ok_iff.mp edited
          exact ⟨[], item, items, y, rfl, rfl, made, rfl⟩
      | succ n =>
          obtain ⟨tail, later, rfl⟩ := map_eq_ok_iff.mp edited
          obtain ⟨front, x, rest, y, rfl, rfl, made, rfl⟩ := ih later
          exact ⟨item :: front, x, rest, y, rfl, rfl, made, rfl⟩

theorem editMember_eq_ok {name : String} {members after : List (String × Json)}
    (edited : editMember missing f name members = .ok after) :
    ∃ front x rest y, members = front ++ (name, x) :: rest ∧ name ∉ Assoc.keys front ∧
      f x = .ok y ∧ after = front ++ (name, y) :: rest := by
  induction members generalizing after with
  | nil => cases edited
  | cons member members ih =>
      obtain ⟨k, v⟩ := member
      rw [editMember] at edited
      split at edited
      · rename_i same
        obtain rfl := eq_of_beq same
        obtain ⟨y, made, rfl⟩ := map_eq_ok_iff.mp edited
        exact ⟨[], v, members, y, rfl, List.not_mem_nil, made, rfl⟩
      · rename_i different
        obtain ⟨tail, later, rfl⟩ := map_eq_ok_iff.mp edited
        obtain ⟨front, x, rest, y, rfl, absent, made, rfl⟩ := ih later
        refine ⟨(k, v) :: front, x, rest, y, rfl, ?_, made, rfl⟩
        simp only [Assoc.keys, List.map_cons, List.mem_cons, not_or]
        exact ⟨fun same => different (by simp [same]), absent⟩

/-- Tokens that name slots lead through them, whatever is done at the place. -/
theorem Frame.plug {tokens : List String} {slots : List Slot}
    (named : List.Forall₂ Slot.Named tokens slots) :
    Frame tokens (plug slots) := by
  intro ε missing f x
  induction named with
  | nil => exact Frame.root missing f x
  | @cons token slot tokens slots here _ ih =>
      cases slot with
      | item front rest =>
          simp only [Slot.plug, Slot.fill, edit, show index? token = some front.length from here,
            editItem_append, ih]
          cases f x <;> rfl
      | member front name rest =>
          obtain ⟨rfl, absent⟩ := here
          have fresh (y : Json) : (name, y) ∉ front := fun inside =>
            absent (List.mem_map_of_mem inside)
          simp only [Slot.plug, Slot.fill, edit, editMember_append missing _ front rest _ fresh, ih]
          cases f x <;> rfl

/-- An edit that is made is made in a slot that the tokens name. -/
theorem edit_eq_ok_iff {tokens : List String} {j after : Json} :
    edit missing f tokens j = .ok after ↔
      ∃ slots x y, List.Forall₂ Slot.Named tokens slots ∧
        j = plug slots x ∧ f x = .ok y ∧ after = plug slots y := by
  constructor
  · intro edited
    induction tokens generalizing j after with
    | nil => exact ⟨[], j, after, .nil, rfl, edited, rfl⟩
    | cons token tokens ih =>
        cases j with
        | object members =>
            rw [edit] at edited
            obtain ⟨changed, inner, rfl⟩ := map_eq_ok_iff.mp edited
            obtain ⟨front, x, rest, y, rfl, absent, deeper, rfl⟩ := editMember_eq_ok inner
            obtain ⟨slots, x, y, named, rfl, made, rfl⟩ := ih deeper
            exact ⟨.member front token rest :: slots, x, y, .cons ⟨rfl, absent⟩ named, rfl, made,
              rfl⟩
        | array items =>
            rw [edit] at edited
            split at edited
            · rename_i n index
              obtain ⟨changed, inner, rfl⟩ := map_eq_ok_iff.mp edited
              obtain ⟨front, x, rest, y, rfl, rfl, deeper, rfl⟩ := editItem_eq_ok inner
              obtain ⟨slots, x, y, named, rfl, made, rfl⟩ := ih deeper
              exact ⟨.item front rest :: slots, x, y, .cons index named, rfl, made, rfl⟩
            · cases edited
        | null | bool | number | string | unreadable => cases edited
  · rintro ⟨slots, x, y, named, rfl, made, rfl⟩
    rw [Frame.plug named missing f x, made]
    rfl

end Edit

end Pointer

section Removal

open Slot (plug)

variable {pointer token last : String} {tokens : List String} {slots : List Slot}
  {d after value : Json}

theorem Json.Held.of_plug {x : Json} (held : (plug slots x).Held) : x.Held := by
  induction slots with
  | nil => exact held
  | cons slot slots ih =>
      apply ih
      cases slot with
      | item front rest => exact held.2.item (List.mem_append_right _ List.mem_cons_self)
      | member front name rest => exact held.2.value (List.mem_append_right _ List.mem_cons_self)

namespace Change

theorem arrayIndex_eq_ok_iff {size n : Nat} :
    arrayIndex token size = .ok n ↔ Pointer.lastIndex? token = some n ∧ n ≤ size := by
  rw [arrayIndex]
  cases Pointer.lastIndex? token with
  | none => simp
  | some k =>
      simp only [Option.some.injEq]
      split
      · rename_i inside
        simp only [Except.ok.injEq]
        exact ⟨fun same => ⟨same, same ▸ inside⟩, fun same => same.1⟩
      · rename_i outside
        simp only [reduceCtorEq, false_iff, not_and]
        rintro rfl
        exact outside

theorem removePart_array_iff {items : List Json} :
    removePart token (.array items) = .ok after ↔
      ∃ n, Pointer.lastIndex? token = some n ∧ n < items.length ∧
        after = .array (items.eraseIdx n) := by
  rw [removePart]
  constructor
  · intro removed
    cases index : arrayIndex token items.length with
    | error flaw =>
        rw [index] at removed
        cases removed
    | ok n =>
        obtain ⟨read, inside⟩ := arrayIndex_eq_ok_iff.mp index
        rw [index] at removed
        change (if (n == items.length) = true then _ else _) = _ at removed
        split at removed
        · cases removed
        · rename_i notEnd
          cases removed
          have different : n ≠ items.length := by simpa using notEnd
          exact ⟨n, read, by omega, rfl⟩
  · rintro ⟨n, read, inside, rfl⟩
    rw [arrayIndex_eq_ok_iff.mpr ⟨read, Nat.le_of_lt inside⟩]
    have notEnd : (n == items.length) = false := by simpa using Nat.ne_of_lt inside
    change (if (n == items.length) = true then _ else _) = _
    rw [notEnd]
    rfl

theorem removePart_eq_ok_iff (held : d.Held) :
    removePart token d = .ok after ↔
      ∃ (slot : Slot) (x : Json), slot.NamedLast token ∧ d = slot.fill x ∧
        after = slot.without := by
  constructor
  · intro removed
    cases d with
    | object members =>
        rw [removePart] at removed
        split at removed
        · rename_i present
          cases removed
          obtain ⟨x, inside⟩ := Assoc.has_iff.mp present
          obtain ⟨front, rest, rfl⟩ := List.append_of_mem inside
          obtain ⟨absent, erased⟩ := held.1.erase_middle
          exact ⟨.member front token rest, x, ⟨rfl, absent⟩, rfl, congrArg Json.object erased⟩
        · cases removed
    | array items =>
        obtain ⟨n, read, inside, rfl⟩ := removePart_array_iff.mp removed
        refine ⟨.item (items.take n) (items.drop (n + 1)), items[n], ?_, ?_, ?_⟩
        · rw [Slot.NamedLast, List.length_take, Nat.min_eq_left (Nat.le_of_lt inside), read]
        · rw [Slot.fill, List.getElem_cons_drop, List.take_append_drop]
        · rw [Slot.without, List.eraseIdx_eq_take_drop_succ]
    | null | bool | number | string | unreadable => cases removed
  · rintro ⟨slot, x, named, rfl, rfl⟩
    cases slot with
    | item front rest =>
        refine removePart_array_iff.mpr ⟨front.length, named, by simp, ?_⟩
        simp [Slot.without, List.eraseIdx_append_of_length_le]
    | member front name rest =>
        obtain ⟨rfl, _⟩ := named
        have present : Assoc.has (front ++ (name, x) :: rest) name = true :=
          Assoc.has_iff.mpr ⟨x, List.mem_append_right _ List.mem_cons_self⟩
        simp only [Slot.fill, removePart, present, if_true, held.1.erase_middle.2, Slot.without]

theorem editParent_eq_ok_iff {f : String → Json → Except PatchFlaw Json} :
    editParent pointer f d = .ok after ↔
      ∃ tokens last slots x y, Pointer.tokens? pointer.toList = some (tokens ++ [last]) ∧
        List.Forall₂ Slot.Named tokens slots ∧
        d = plug slots x ∧ f last x = .ok y ∧ after = plug slots y := by
  rw [editParent]
  cases cut : Text.cutLast? '/' pointer.toList with
  | none =>
      refine iff_of_false nofun ?_
      rintro ⟨tokens, last, slots, x, y, read, _⟩
      rw [Pointer.tokens?_of_uncut cut read] at read
      exact List.concat_ne_nil last tokens (Option.some.inj read).symm
  | some split =>
      obtain ⟨parent, last⟩ := split
      simp only [Pointer.tokens?_of_cutLast? cut]
      cases Pointer.tokens? parent with
      | none =>
          refine iff_of_false nofun ?_
          rintro ⟨_, _, _, _, _, read, _⟩
          cases read
      | some tokens =>
          simp only [Pointer.edit_eq_ok_iff, Option.map_some, Option.some.injEq]
          constructor
          · rintro ⟨slots, x, y, named, whole, made, result⟩
            exact ⟨tokens, _, slots, x, y, rfl, named, whole, made, result⟩
          · rintro ⟨others, other, slots, x, y, same, named, whole, made, result⟩
            obtain ⟨rfl, lasts⟩ := List.append_inj' same rfl
            cases lasts
            exact ⟨slots, x, y, named, whole, made, result⟩

theorem remove_eq_ok_iff (held : d.Held) :
    (remove pointer).applyTo d = .ok after ↔
      ∃ tokens last slots, ∃ (slot : Slot) (x : Json),
        Pointer.tokens? pointer.toList = some (tokens ++ [last]) ∧
        List.Forall₂ Slot.Named tokens slots ∧
        slot.NamedLast last ∧ d = plug slots (slot.fill x) ∧ after = plug slots slot.without := by
  rw [applyTo, editParent_eq_ok_iff]
  constructor
  · rintro ⟨tokens, last, slots, part, y, read, named, rfl, removed, rfl⟩
    obtain ⟨slot, x, lastNamed, rfl, rfl⟩ := (removePart_eq_ok_iff held.of_plug).mp removed
    exact ⟨tokens, last, slots, slot, x, read, named, lastNamed, rfl, rfl⟩
  · rintro ⟨tokens, last, slots, slot, x, read, named, lastNamed, rfl, rfl⟩
    refine ⟨tokens, last, slots, _, _, read, named, rfl, ?_, rfl⟩
    exact (removePart_eq_ok_iff held.of_plug).mpr ⟨slot, x, lastNamed, rfl, rfl⟩

theorem replace_plug (read : Pointer.tokens? pointer.toList = some (tokens ++ [last]))
    (named : List.Forall₂ Slot.Named tokens slots) (x value : Json) :
    (replace pointer value).applyTo (plug slots x) =
      (Pointer.edit .nothingToReplace (fun _ => .ok value) [last] x).map (plug slots) := by
  simp only [applyTo, read, Pointer.edit_append]
  exact Pointer.Frame.plug named _ _ _

theorem replace_slot (read : Pointer.tokens? pointer.toList = some (tokens ++ [last]))
    (named : List.Forall₂ Slot.Named tokens slots) {slot : Slot}
    (lastNamed : slot.Named last) (x value : Json) :
    (replace pointer value).applyTo (plug slots (slot.fill x)) =
      .ok (plug slots (slot.fill value)) := by
  have inner : Pointer.edit PatchFlaw.nothingToReplace (fun _ => .ok value) [last] (slot.fill x) =
      .ok (slot.fill value) :=
    Pointer.Frame.plug (.cons lastNamed .nil) PatchFlaw.nothingToReplace _ x
  rw [replace_plug read named, inner]
  rfl

/-- The pointer leads to an item of an array by a last token that is read as the item's index and
is not the index as it is written: it has a sign or zeros before it. -/
def Loose (pointer : String) (d : Json) : Prop :=
  ∃ tokens last slots front x rest, Pointer.tokens? pointer.toList = some (tokens ++ [last]) ∧
    List.Forall₂ Slot.Named tokens slots ∧
    d = plug slots (.array (front ++ x :: rest)) ∧
    Pointer.lastIndex? last = some front.length ∧ last ≠ toString front.length

theorem Loose.not_replaced (loose : Loose pointer d) :
    (replace pointer value).applyTo d ≠ .ok after := by
  obtain ⟨tokens, last, slots, front, x, rest, read, named, rfl, index, spelled⟩ := loose
  have unread : Pointer.index? last = none := by
    cases plain : Pointer.index? last with
    | none => rfl
    | some n =>
        rw [Pointer.lastIndex?_of_index? plain] at index
        cases index
        exact absurd (Pointer.index?_eq_some_iff.mp plain).1 spelled
  rw [replace_plug read named]
  simp only [Pointer.edit, unread]
  intro made
  cases made

/-- A slot that a removal finds is one that a replacement finds, or its index is not written as
it is. -/
theorem named_or_loose (read : Pointer.tokens? pointer.toList = some (tokens ++ [last]))
    (named : List.Forall₂ Slot.Named tokens slots) {slot : Slot}
    (lastNamed : slot.NamedLast last) (x : Json) :
    slot.Named last ∨ Loose pointer (plug slots (slot.fill x)) := by
  cases slot with
  | item front rest =>
      by_cases spelled : last = toString front.length
      · have bound := Pointer.lastIndex?_le lastNamed
        exact .inl (Pointer.index?_eq_some_iff.mpr ⟨spelled, bound⟩)
      · exact .inr ⟨tokens, last, slots, front, x, rest, read, named, rfl, lastNamed, spelled⟩
  | member front name rest => exact .inl lastNamed

/-- In a value held in memory, a removal is made exactly where a replacement is made below the whole
value, and besides at items whose index the pointer writes with a sign or with zeros before it,
where nothing can be replaced. It takes out just the part that the replacement puts a value in the
place of, and leaves what stands before and after it. -/
theorem remove_replace (held : d.Held) (pointer : String) (value : Json) :
    ((∃ after, (remove pointer).applyTo d = .ok after) ↔
      pointer ≠ "" ∧
        ((∃ after, (replace pointer value).applyTo d = .ok after) ∨ Loose pointer d)) ∧
    (Loose pointer d → ∀ after, (replace pointer value).applyTo d ≠ .ok after) ∧
    ∀ after, (remove pointer).applyTo d = .ok after →
      ∃ tokens last slots, ∃ (slot : Slot) (x : Json),
        Pointer.tokens? pointer.toList = some (tokens ++ [last]) ∧
        List.Forall₂ Slot.Named tokens slots ∧ slot.NamedLast last ∧
        d = plug slots (slot.fill x) ∧ after = plug slots slot.without ∧
        ∀ replaced, (replace pointer value).applyTo d = .ok replaced →
          replaced = plug slots (slot.fill value) := by
  refine ⟨⟨?_, ?_⟩, fun loose after => loose.not_replaced, ?_⟩
  · rintro ⟨after, removed⟩
    obtain ⟨tokens, last, slots, slot, x, read, named, lastNamed, rfl, _⟩ :=
      (remove_eq_ok_iff held).mp removed
    refine ⟨?_, ?_⟩
    · rintro rfl
      exact List.concat_ne_nil last tokens (Option.some.inj read).symm
    · rcases named_or_loose read named lastNamed x with plain | loose
      · exact .inl ⟨_, replace_slot read named plain x value⟩
      · exact .inr loose
  · rintro ⟨below, ⟨after, replaced⟩ | loose⟩
    · simp only [applyTo] at replaced
      split at replaced
      · cases replaced
      · rename_i tokens read
        cases tokens using List.reverseRecOn with
        | nil => exact absurd (Pointer.eq_empty_of_tokens? read) below
        | append_singleton tokens last _ =>
            rw [Pointer.edit_append] at replaced
            obtain ⟨slots, part, y, named, rfl, inner, rfl⟩ :=
              Pointer.edit_eq_ok_iff.mp replaced
            obtain ⟨_, x, _, lastNamed, rfl, _, _⟩ := Pointer.edit_eq_ok_iff.mp inner
            cases lastNamed with
            | cons here nothing =>
                cases nothing
                exact ⟨_, (remove_eq_ok_iff held).mpr
                  ⟨tokens, last, slots, _, x, read, named, here.last, rfl, rfl⟩⟩
    · obtain ⟨tokens, last, slots, front, x, rest, read, named, rfl, index, _⟩ := loose
      exact ⟨_, (remove_eq_ok_iff held).mpr
        ⟨tokens, last, slots, .item front rest, x, read, named, index, rfl, rfl⟩⟩
  · intro after removed
    obtain ⟨tokens, last, slots, slot, x, read, named, lastNamed, rfl, rfl⟩ :=
      (remove_eq_ok_iff held).mp removed
    refine ⟨tokens, last, slots, slot, x, read, named, lastNamed, rfl, rfl, fun replaced made => ?_⟩
    rcases named_or_loose read named lastNamed x with plain | loose
    · rw [replace_slot read named plain] at made
      exact (Except.ok.inj made).symm
    · exact absurd made loose.not_replaced

/-- The second of two items is taken out under `01`, where nothing can be replaced. -/
theorem remove_replace_zero :
    let d : Json := .array [.whole 1, .whole 2]
    (∃ after, (remove "/01").applyTo d = .ok after) ∧
      ∀ value after, (replace "/01" value).applyTo d ≠ .ok after := by
  intro d
  have held : d.Held := ⟨by decide, trivial, trivial, trivial⟩
  have loose : Loose "/01" d :=
    ⟨[], "01", [], [.whole 1], .whole 2, [], by decide +kernel, .nil, rfl, by decide +kernel,
      by decide +kernel⟩
  exact ⟨(remove_replace held "/01" .null).1.mpr ⟨by decide, .inr loose⟩,
    fun value => (remove_replace held "/01" value).2.1 loose⟩

end Change

end Removal

end Concordance
