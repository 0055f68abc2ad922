import Mathlib
import Concordance.Json.Patch
import Concordance.Proofs.Json.Canonical

/-! # Changes from one JSON value to another

The changes that `Patch.delta` finds, made one after the other, turn the first
value into the second. Changes at a place are followed inside a frame around that
place: each change leaves the frame as it is, so the pointers of later changes
still lead where they led before.
-/

namespace Concordance

def Change.Held : Change → Prop
  | add _ value | replace _ value => value.Held
  | remove _ => True

namespace Patch

open Pointer (Frame)

section Steps

variable {place : List String} {fill : Json → Json}

theorem apply_cons {change : Change} {rest : Patch} {j next : Json}
    (made : change.applyTo j = .ok next) : apply j (change :: rest) = apply next rest := by
  simp only [apply, made]

theorem applyTo_replace (frame : Frame place fill) (x value : Json) :
    (Change.replace (Pointer.text place) value).applyTo (fill x) = .ok (fill value) := by
  simp only [Change.applyTo, Pointer.tokens?_text]
  exact frame _ _ _

theorem editParent_text (frame : Frame place fill) (token : String)
    (f : String → Json → Except PatchFlaw Json) (x : Json) :
    Change.editParent (Pointer.text (place ++ [token])) f (fill x) = (f token x).map fill := by
  simp only [Change.editParent, Pointer.cutLast?_text, Pointer.tokens?_text,
    Pointer.unescape_escape, String.ofList_toList]
  exact frame _ _ _

theorem applyTo_remove_member (frame : Frame place fill) {name : String}
    {members : List (String × Json)} (present : Assoc.has members name = true) :
    (Change.remove (Pointer.text (place ++ [name]))).applyTo (fill (.object members)) =
      .ok (fill (.object (Assoc.erase members name))) := by
  simp only [Change.applyTo, editParent_text frame, Change.removePart, present, if_true]
  rfl

theorem applyTo_add_member (frame : Frame place fill) (name : String) (value : Json)
    (members : List (String × Json)) :
    (Change.add (Pointer.text (place ++ [name])) value).applyTo (fill (.object members)) =
      .ok (fill (.object (Assoc.put members name value))) := by
  simp only [Change.applyTo, editParent_text frame, Change.addPart]
  rfl

theorem arrayIndex_toString {n size : Nat} (inside : n ≤ size) (bound : size ≤ Pointer.largestIndex) :
    Change.arrayIndex (toString n) size = .ok n := by
  simp only [Change.arrayIndex, Pointer.lastIndex?_toString (inside.trans bound), inside, if_true]

theorem toString_ne_hyphen (n : Nat) : toString n ≠ "-" := by
  intro same
  have digit : ('-').isDigit = true :=
    Nat.isDigit_of_mem_toDigits (b := 10) (n := n) (by decide) (by decide)
      (by rw [← Nat.toList_repr, ← Nat.toString_eq_repr, same]; simp)
  exact absurd digit (by decide)

theorem applyTo_add_item (frame : Frame place fill) (value : Json) (items : List Json)
    (bound : items.length ≤ Pointer.largestIndex) :
    (Change.add (Pointer.text (place ++ [toString items.length])) value).applyTo
      (fill (.array items)) = .ok (fill (.array (items ++ [value]))) := by
  simp only [Change.applyTo, editParent_text frame, Change.addPart, beq_iff_eq,
    toString_ne_hyphen, if_false, arrayIndex_toString (Nat.le_refl _) bound, bind, Except.bind,
    List.insertIdx_length_self]
  rfl

theorem applyTo_remove_last (frame : Frame place fill) (items : List Json) (last : Json)
    (bound : (items ++ [last]).length ≤ Pointer.largestIndex) :
    (Change.remove (Pointer.text (place ++ [toString items.length]))).applyTo
      (fill (.array (items ++ [last]))) = .ok (fill (.array items)) := by
  have inside : items.length ≤ (items ++ [last]).length := by simp
  have notEnd : (items.length == (items ++ [last]).length) = false := by simp
  simp only [Change.applyTo, editParent_text frame, Change.removePart,
    arrayIndex_toString inside bound, bind, Except.bind, notEnd, Bool.false_eq_true, if_false,
    List.eraseIdx_append_of_length_le (Nat.le_refl _), Nat.sub_self, List.eraseIdx_cons_zero,
    List.append_nil]
  rfl

end Steps

section Runs

variable {place : List String} {fill : Json → Json}

theorem apply_removes (frame : Frame place fill) (names : List String)
    (members : List (String × Json)) (distinct : names.Nodup)
    (present : ∀ name ∈ names, Assoc.has members name = true) (rest : Patch) :
    apply (fill (.object members))
        (names.map (fun name => .remove (Pointer.text (place ++ [name]))) ++ rest) =
      apply (fill (.object (members.filter fun member => !names.contains member.1))) rest := by
  induction names generalizing members with
  | nil => simp
  | cons name names ih =>
      obtain ⟨absent, distinct⟩ := List.nodup_cons.mp distinct
      rw [List.map_cons, List.cons_append,
        apply_cons (applyTo_remove_member frame (present name List.mem_cons_self)),
        ih (Assoc.erase members name) distinct]
      · congr 3
        rw [Assoc.erase, List.filter_filter]
        apply List.filter_congr
        intro member _
        simp only [List.contains_cons, Bool.not_or, Bool.and_comm, bne]
      · intro other member
        have different : other ≠ name := fun same => absent (same ▸ member)
        have before := present other (List.mem_cons_of_mem _ member)
        simpa [Assoc.has, Assoc.get?_erase, different] using before

theorem apply_adds (frame : Frame place fill) (added members : List (String × Json))
    (rest : Patch) :
    apply (fill (.object members))
        (added.map (fun member => .add (Pointer.text (place ++ [member.1])) member.2) ++ rest) =
      apply (fill (.object (added.foldl (fun m member => Assoc.put m member.1 member.2) members)))
        rest := by
  induction added generalizing members with
  | nil => rfl
  | cons member added ih =>
      rw [List.map_cons, List.cons_append, apply_cons (applyTo_add_member frame _ _ _), ih]
      rfl

theorem apply_appends (frame : Frame place fill) (items added : List Json)
    (bound : (items ++ added).length ≤ Pointer.largestIndex) (rest : Patch) :
    apply (fill (.array items)) (appends place items.length added ++ rest) =
      apply (fill (.array (items ++ added))) rest := by
  induction added generalizing items with
  | nil => simp [appends]
  | cons item added ih =>
      have inside : items.length ≤ Pointer.largestIndex := by
        simp only [List.length_append] at bound
        omega
      have next := ih (items ++ [item]) (by simpa using bound)
      rw [List.length_append, List.length_singleton, List.append_assoc] at next
      rw [appends, List.cons_append, apply_cons (applyTo_add_item frame item items inside), next]
      rfl

theorem truncations_concat (place : List String) (start count : Nat) :
    truncations place start (count + 1) =
      .remove (Pointer.text (place ++ [toString (start + count)])) ::
        truncations place start count := by
  simp [truncations, List.range_succ]

theorem apply_truncations (frame : Frame place fill) (items tail : List Json)
    (bound : (items ++ tail).length ≤ Pointer.largestIndex) (rest : Patch) :
    apply (fill (.array (items ++ tail))) (truncations place items.length tail.length ++ rest) =
      apply (fill (.array items)) rest := by
  induction tail using List.reverseRecOn with
  | nil => simp [truncations]
  | append_singleton tail last ih =>
      rw [← List.append_assoc] at bound
      have shorter : (items ++ tail).length ≤ Pointer.largestIndex := by
        simp only [List.length_append] at bound ⊢
        omega
      have step := applyTo_remove_last frame (items ++ tail) last bound
      rw [List.length_append] at step
      rw [List.length_append, List.length_singleton, truncations_concat, List.cons_append,
        ← List.append_assoc, apply_cons step, ih shorter]

end Runs

section Members

theorem get?_filter_has (members other : List (String × Json)) (keep : Bool → Bool)
    (name : String) :
    Assoc.get? (members.filter fun member => keep (Assoc.has other member.1)) name =
      if keep (Assoc.has other name) then Assoc.get? members name else none := by
  induction members with
  | nil => simp
  | cons member members ih =>
      obtain ⟨k, v⟩ := member
      rw [List.filter_cons]
      by_cases same : name = k
      · subst same
        cases kept : keep (Assoc.has other name) <;> simp [ih, kept]
      · cases kept : keep (Assoc.has other k) <;> simp [ih, same]

/-- What members of both objects become: each has the name it had and the other object's value. -/
def Carried (variant : List (String × Json)) (b w : String × Json) : Prop :=
  b.1 = w.1 ∧ ∃ v, Assoc.get? variant b.1 = some v ∧ w.2.same v = true

theorem Carried.get? {variant kept made : List (String × Json)}
    (carried : List.Forall₂ (Carried variant) kept made) (name : String) :
    Option.Rel (fun _ w => ∃ v, Assoc.get? variant name = some v ∧ w.same v = true)
      (Assoc.get? kept name) (Assoc.get? made name) := by
  induction carried with
  | nil => exact .none
  | @cons b w kept made here _ ih =>
      obtain ⟨k, x⟩ := b
      obtain ⟨l, y⟩ := w
      obtain ⟨names, v, found, same⟩ := here
      simp only at names
      subst names
      rw [Assoc.get?_cons, Assoc.get?_cons]
      by_cases first : name = k
      · subst first
        simp only [beq_self_eq_true, if_true]
        exact .some ⟨v, found, same⟩
      · simpa [first] using ih

theorem Carried.keys {variant kept made : List (String × Json)}
    (carried : List.Forall₂ (Carried variant) kept made) : Assoc.keys made = Assoc.keys kept := by
  induction carried with
  | nil => rfl
  | cons here _ ih => simp [Assoc.keys, here.1] at ih ⊢; exact ih

/-- Without the removed, with the carried and with the added members an object is the other one. -/
theorem members_same {base variant made : List (String × Json)} (hb : Assoc.Rising base)
    (hv : Assoc.Rising variant)
    (carried : List.Forall₂ (Carried variant)
      (base.filter fun member => Assoc.has variant member.1) made) :
    Json.sameMembers
      ((variant.filter fun member => !Assoc.has base member.1).foldl
        (fun m member => Assoc.put m member.1 member.2) made) variant = true := by
  rw [Json.sameMembers_iff]
  have madeRises : Assoc.Rising made := (hb.filter _).of_keys (Carried.keys carried)
  refine Assoc.Rising.forall₂_of_get? (R := fun a b => a.same b = true)
    (Assoc.rising_foldl_put _ Prod.fst Prod.snd madeRises) hv ?_
  intro name
  have added := get?_filter_has variant base not name
  have kept := get?_filter_has base variant id name
  have values := Carried.get? carried name
  simp only [id_eq] at kept
  rw [kept] at values
  rw [Assoc.get?_foldl_put _ _ (hv.filter _).nodup_keys, added]
  cases inVariant : Assoc.get? variant name with
  | none =>
      have absent : Assoc.has variant name = false := by simp [Assoc.has, inVariant]
      simp only [absent, Bool.false_eq_true, if_false] at values
      cases made? : Assoc.get? made name with
      | none => simp
      | some w => rw [made?] at values; cases values
  | some v =>
      have present : Assoc.has variant name = true := by simp [Assoc.has, inVariant]
      simp only [present, if_true] at values
      cases inBase : Assoc.get? base name with
      | none =>
          have new : Assoc.has base name = false := by simp [Assoc.has, inBase]
          simpa [new] using v.same_refl
      | some b =>
          have old : Assoc.has base name = true := by simp [Assoc.has, inBase]
          rw [inBase] at values
          cases made? : Assoc.get? made name with
          | none => rw [made?] at values; cases values
          | some w =>
              rw [made?, inVariant] at values
              cases values with
              | some found =>
                  obtain ⟨v', sameValue, equal⟩ := found
                  cases sameValue
                  simpa [old] using equal

theorem apply_removals {place : List String} {fill : Json → Json} (frame : Frame place fill)
    {base : List (String × Json)} (rises : Assoc.Rising base) (variant : List (String × Json))
    (rest : Patch) :
    apply (fill (.object base)) (removals place base variant ++ rest) =
      apply (fill (.object (base.filter fun member => Assoc.has variant member.1))) rest := by
  let gone := base.filter fun member => !Assoc.has variant member.1
  have names : removals place base variant =
      (Assoc.keys gone).map fun name => .remove (Pointer.text (place ++ [name])) := by
    rw [Assoc.keys, List.map_map]
    rfl
  have present : ∀ name ∈ Assoc.keys gone, Assoc.has base name = true := by
    intro name member
    obtain ⟨⟨k, v⟩, inGone, rfl⟩ := List.mem_map.mp member
    exact Assoc.has_iff.mpr ⟨v, (List.mem_filter.mp inGone).1⟩
  rw [names, apply_removes frame _ _ (rises.filter _).nodup_keys present]
  congr 3
  apply List.filter_congr
  intro member inBase
  cases kept : Assoc.has variant member.1 with
  | true =>
      have stays : member.1 ∉ Assoc.keys gone := by
        intro inGone
        obtain ⟨other, otherGone, same⟩ := List.mem_map.mp inGone
        have lost := (List.mem_filter.mp otherGone).2
        rw [same, kept] at lost
        cases lost
      simpa using stays
  | false =>
      have goes : member.1 ∈ Assoc.keys gone :=
        List.mem_map.mpr ⟨member, List.mem_filter.mpr ⟨inBase, by rw [kept]; rfl⟩, rfl⟩
      simpa using goes

end Members

section Delta

mutual

/-- The changes found at a place turn the value there into one equal to the other. -/
theorem apply_deltaAt {place : List String} {fill : Json → Json} (frame : Frame place fill)
    (base variant : Json) (hb : base.Held) (hv : variant.Held) :
    ∃ made, made.same variant = true ∧
      ∀ rest, apply (fill base) (deltaAt place base variant ++ rest) = apply (fill made) rest := by
  rw [deltaAt.eq_def]
  cases equal : base.same variant with
  | true => exact ⟨base, equal, fun rest => rfl⟩
  | false =>
      simp only [Bool.false_eq_true, if_false]
      -- Where the kinds differ the value is replaced as a whole.
      have replaced : ∃ made, made.same variant = true ∧
          ∀ rest, apply (fill base) ([.replace (Pointer.text place) variant] ++ rest) =
            apply (fill made) rest :=
        ⟨variant, variant.same_refl, fun rest => apply_cons (applyTo_replace frame base variant)⟩
      cases base with
      | object bs =>
          cases variant with
          | object vs =>
              obtain ⟨made, carried, step⟩ := apply_deltaMembers frame vs [] bs []
                (fun _ _ _ => List.not_mem_nil) hb.1 hb.2 hv.2
              simp only [List.nil_append, List.append_nil] at step
              refine ⟨.object _, members_same hb.1 hv.1 carried, fun rest => ?_⟩
              rw [List.append_assoc, List.append_assoc, apply_removals frame hb.1]
              exact (step _).trans (apply_adds frame _ made rest)
          | null | bool | number | string | array | unreadable => exact replaced
      | array bs =>
          cases variant with
          | array vs =>
              obtain ⟨made, equalItems, step⟩ := apply_deltaItems frame [] bs vs hb.1 hv.1 hb.2 hv.2
              exact ⟨.array made, equalItems, step⟩
          | null | bool | number | string | object | unreadable => exact replaced
      | null | bool | number | string | unreadable => exact replaced
termination_by structural base

/-- The changes within the members both objects have, the members in front being settled and those
at the back left alone. -/
theorem apply_deltaMembers {place : List String} {fill : Json → Json} (frame : Frame place fill)
    (variant front base back : List (String × Json))
    (apart : ∀ member ∈ base, ∀ value, (member.1, value) ∉ front) (rises : Assoc.Rising base)
    (hb : Json.HeldMembers base) (hv : Json.HeldMembers variant) :
    ∃ made, List.Forall₂ (Carried variant)
        (base.filter fun member => Assoc.has variant member.1) made ∧
      ∀ rest, apply
          (fill (.object (front ++ (base.filter fun member => Assoc.has variant member.1) ++ back)))
          (deltaMembers place variant base ++ rest) =
        apply (fill (.object (front ++ made ++ back))) rest := by
  cases base with
  | nil => exact ⟨[], .nil, fun rest => rfl⟩
  | cons member base =>
      obtain ⟨name, value⟩ := member
      have later : ∀ member ∈ base, ∀ other, (member.1, other) ∉ front :=
        fun member inBase => apart member (List.mem_cons_of_mem _ inBase)
      have distinct : ∀ member ∈ base, member.1 ≠ name := by
        intro member inBase same
        have nodup := rises.nodup_keys
        exact (List.nodup_cons.mp nodup).1 (List.mem_map.mpr ⟨member, inBase, same⟩)
      rw [deltaMembers.eq_def]
      cases found : Assoc.get? variant name with
      | none =>
          have absent : Assoc.has variant name = false := by simp [Assoc.has, found]
          obtain ⟨made, carried, step⟩ :=
            apply_deltaMembers frame variant front base back later rises.tail hb.2 hv
          simp only [List.filter_cons, absent, Bool.false_eq_true, if_false, found, List.nil_append]
          exact ⟨made, carried, step⟩
      | some other =>
          have present : Assoc.has variant name = true := by simp [Assoc.has, found]
          have inner : Frame (place ++ [name]) _ := frame.member front
            ((base.filter fun member => Assoc.has variant member.1) ++ back)
            (apart (name, value) List.mem_cons_self)
          obtain ⟨first, equal, change⟩ := apply_deltaAt inner value other hb.1
            (hv.value (Assoc.mem_of_get? found))
          obtain ⟨made, carried, step⟩ :=
            apply_deltaMembers frame variant (front ++ [(name, first)]) base back
              (by
                intro member inBase x inFront
                rcases List.mem_append.mp inFront with before | here
                · exact later member inBase x before
                · exact distinct member inBase (congrArg Prod.fst (List.mem_singleton.mp here)))
              rises.tail hb.2 hv
          refine ⟨(name, first) :: made, ?_, fun rest => ?_⟩
          · rw [List.filter_cons, present]
            exact .cons ⟨rfl, other, found, equal⟩ carried
          · have next := step rest
            simp only [List.append_assoc, List.singleton_append] at next
            simp only [List.filter_cons, present, if_true, found, List.append_assoc,
              List.cons_append]
            exact (change _).trans next
termination_by structural base

/-- The changes within the items both arrays have, and at the end of the longer one. -/
theorem apply_deltaItems {place : List String} {fill : Json → Json} (frame : Frame place fill)
    (front base variant : List Json) (baseBound : (front ++ base).length ≤ Pointer.largestIndex)
    (variantBound : (front ++ variant).length ≤ Pointer.largestIndex)
    (hb : Json.HeldItems base) (hv : Json.HeldItems variant) :
    ∃ made, Json.sameItems made variant = true ∧
      ∀ rest, apply (fill (.array (front ++ base)))
          (deltaItems place front.length base variant ++ rest) =
        apply (fill (.array (front ++ made))) rest := by
  cases base with
  | nil =>
      rw [deltaItems.eq_def, List.append_nil]
      exact ⟨variant, Json.sameItems_refl variant, apply_appends frame front variant variantBound⟩
  | cons b base =>
      cases variant with
      | nil =>
          refine ⟨[], rfl, fun rest => ?_⟩
          rw [deltaItems.eq_def, List.append_nil]
          exact apply_truncations frame front (b :: base) baseBound rest
      | cons v variant =>
          have inside : front.length ≤ Pointer.largestIndex := by
            simp only [List.length_append] at baseBound
            omega
          obtain ⟨first, equal, change⟩ :=
            apply_deltaAt (frame.item front base inside) b v hb.1 hv.1
          obtain ⟨made, equalItems, step⟩ := apply_deltaItems frame (front ++ [first]) base variant
            (by simpa using baseBound) (by simpa using variantBound) hb.2 hv.2
          refine ⟨first :: made, by simp [Json.sameItems, equal, equalItems], fun rest => ?_⟩
          have next := step rest
          rw [List.append_assoc, List.append_assoc, List.length_append] at next
          rw [deltaItems.eq_def, List.append_assoc]
          exact (change _).trans next
termination_by structural base

end

/-- The changes from one value to another can be made, they give the other value, and there are none
of them exactly when the values are equal already. -/
theorem apply_delta (base variant : Json) (hb : base.Held) (hv : variant.Held) :
    (∃ made, apply base (delta base variant) = .ok made ∧ made.same variant = true) ∧
      (delta base variant = [] ↔ base.same variant = true) := by
  obtain ⟨made, equal, step⟩ := apply_deltaAt Frame.root base variant hb hv
  have run : apply base (delta base variant) = .ok made := by
    simpa [delta, apply] using step []
  refine ⟨⟨made, run, equal⟩, ?_, ?_⟩
  · intro nothing
    rw [nothing] at run
    cases run
    exact equal
  · intro same
    rw [delta, deltaAt.eq_def, same, if_pos rfl]

theorem apply_delta_nested :
    let base : Json := .object
      [("", .array [.whole 1, .object [("0", .bool true)], .whole 3]),
        ("a/b", .string "kept"), ("gone", .null)]
    let variant : Json := .object
      [("", .array [.whole 1, .object [("0", .bool false), ("~1", .array [])]]),
        ("a/b", .array [.null]), ("new", .whole 2)]
    (∃ made, apply base (delta base variant) = .ok made ∧ made.same variant = true) ∧
      (delta base variant = [] ↔ base.same variant = true) :=
  apply_delta _ _
    (by simp [Json.Held, Json.HeldItems, Json.HeldMembers, Json.whole, Assoc.Rising,
          Pointer.largestIndex]; decide)
    (by simp [Json.Held, Json.HeldItems, Json.HeldMembers, Json.whole, Assoc.Rising,
          Pointer.largestIndex]; decide)

end Delta

section Larger

/-- Changes between objects of the same names can be made to an object with more members behind, which
they leave alone. -/
theorem apply_delta_larger {base variant : List (String × Json)} (back : List (String × Json))
    (names : Assoc.keys base = Assoc.keys variant) (hb : (Json.object base).Held)
    (hv : (Json.object variant).Held) :
    ∃ made, Json.sameMembers made variant = true ∧
      apply (.object (base ++ back)) (delta (.object base) (.object variant)) =
        .ok (.object (made ++ back)) := by
  have carries (member : String × Json) (inside : member ∈ base) :
      Assoc.has variant member.1 = true :=
    Assoc.has_iff_mem_keys.mpr (names ▸ List.mem_map_of_mem inside)
  have known (member : String × Json) (inside : member ∈ variant) :
      Assoc.has base member.1 = true :=
    Assoc.has_iff_mem_keys.mpr (names ▸ List.mem_map_of_mem inside)
  have kept : base.filter (fun member => Assoc.has variant member.1) = base :=
    List.filter_eq_self.mpr carries
  have gone : base.filter (fun member => !Assoc.has variant member.1) = [] :=
    List.filter_eq_nil_iff.mpr fun member inside => by simp [carries member inside]
  have new : variant.filter (fun member => !Assoc.has base member.1) = [] :=
    List.filter_eq_nil_iff.mpr fun member inside => by simp [known member inside]
  obtain ⟨made, carried, step⟩ := apply_deltaMembers Frame.root variant [] base back
    (fun _ _ _ => List.not_mem_nil) hb.1 hb.2 hv.2
  have equal := members_same hb.1 hv.1 carried
  rw [new, List.foldl_nil] at equal
  have run := step []
  rw [kept] at run
  simp only [List.nil_append, List.append_nil, id_eq] at run
  rw [delta, deltaAt.eq_def]
  cases settled : (Json.object base).same (.object variant) with
  | true => exact ⟨base, settled, rfl⟩
  | false =>
      refine ⟨made, equal, ?_⟩
      simpa [removals, additions, gone, new, apply] using run

end Larger

section Values

theorem appends_held {place : List String} {n : Nat} {items : List Json} (hv : Json.HeldItems items) :
    ∀ change ∈ appends place n items, change.Held := by
  induction items generalizing n with
  | nil => simp [appends]
  | cons item items ih =>
      intro change member
      rcases List.mem_cons.mp member with rfl | member
      · exact hv.1
      · exact ih hv.2 change member

mutual

theorem deltaAt_held (place : List String) (base variant : Json) (hv : variant.Held) :
    ∀ change ∈ deltaAt place base variant, change.Held := by
  rw [deltaAt.eq_def]
  cases base.same variant with
  | true => simp
  | false =>
      have replaced : ∀ change ∈ [Change.replace (Pointer.text place) variant], change.Held := by
        intro change member
        cases List.mem_singleton.mp member
        exact hv
      simp only [Bool.false_eq_true, if_false]
      cases base with
      | object bs =>
          cases variant with
          | object vs =>
              intro change member
              rcases List.mem_append.mp member with removed | member
              · obtain ⟨gone, _, rfl⟩ := List.mem_map.mp removed
                trivial
              · rcases List.mem_append.mp member with inside | added
                · exact deltaMembers_held place vs bs hv.2 change inside
                · obtain ⟨new, listed, rfl⟩ := List.mem_map.mp added
                  exact Json.heldMembers_iff.mp hv.2 new (List.mem_filter.mp listed).1
          | null | bool | number | string | array | unreadable => exact replaced
      | array bs =>
          cases variant with
          | array vs => exact deltaItems_held place 0 bs vs hv.2
          | null | bool | number | string | object | unreadable => exact replaced
      | null | bool | number | string | unreadable => exact replaced
termination_by structural base

theorem deltaMembers_held (place : List String) (variant base : List (String × Json))
    (hv : Json.HeldMembers variant) : ∀ change ∈ deltaMembers place variant base, change.Held := by
  cases base with
  | nil => simp [deltaMembers]
  | cons member base =>
      obtain ⟨name, value⟩ := member
      rw [deltaMembers.eq_def]
      intro change inside
      rcases List.mem_append.mp inside with here | later
      · cases found : Assoc.get? variant name with
        | none => simp [found] at here
        | some other =>
            rw [found] at here
            exact deltaAt_held _ value other (hv.value (Assoc.mem_of_get? found)) change here
      · exact deltaMembers_held place variant base hv change later
termination_by structural base

theorem deltaItems_held (place : List String) (n : Nat) (base variant : List Json)
    (hv : Json.HeldItems variant) : ∀ change ∈ deltaItems place n base variant, change.Held := by
  cases base with
  | nil =>
      rw [deltaItems.eq_def]
      exact appends_held hv
  | cons b base =>
      cases variant with
      | nil =>
          rw [deltaItems.eq_def]
          intro change member
          obtain ⟨k, _, rfl⟩ := List.mem_map.mp member
          trivial
      | cons v variant =>
          rw [deltaItems.eq_def]
          intro change inside
          rcases List.mem_append.mp inside with here | later
          · exact deltaAt_held _ b v hv.1 change here
          · exact deltaItems_held place (n + 1) base variant hv.2 change later
termination_by structural base

end

end Values

end Patch

end Concordance
