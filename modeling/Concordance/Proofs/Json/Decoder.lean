import Mathlib
import Concordance.Json.Decoder
import Concordance.Proofs.Json.Canonical

/-! # Decoding what was encoded

Whatever order an object's members were written in, its canonical form is read as a
record with the same fields. A choice is read back as the alternative it names and the
members besides.
-/

namespace Concordance.Decode

variable {α : Type} {members : List (String × Json)} {names : List String}

theorem distinctNames_of_nodup {fields : List (String × Json)} (distinct : (Assoc.keys fields).Nodup) :
    distinctNames fields = true := by
  induction fields with
  | nil => rfl
  | cons field fields ih =>
      obtain ⟨name, value⟩ := field
      obtain ⟨absent, distinct⟩ := List.nodup_cons.mp distinct
      have once : fields.any (fun field => field.1 == name) = false := by
        rw [List.any_eq_false]
        intro field member same
        exact absent (List.mem_map.mpr ⟨field, member, eq_of_beq same⟩)
      simp [distinctNames, once, ih distinct]

theorem canonical_object (distinct : (Assoc.keys members).Nodup) :
    ∃ sorted, (Json.object members).canonical = .object sorted ∧ Assoc.Rising sorted ∧
      (∀ name, Assoc.get? sorted name = (Assoc.get? members name).map Json.canonical) ∧
      ∀ member ∈ sorted, member.1 ∈ Assoc.keys members := by
  have keys := Json.canonicalMembers_keys members
  refine ⟨_, by rw [Json.canonical], Assoc.rising_ofList _, fun name => ?_, fun member inside => ?_⟩
  · rw [Assoc.get?_ofList (keys ▸ distinct), Json.get?_canonicalMembers]
  · rw [← keys]
    exact List.mem_map_of_mem (Assoc.mem_ofList inside)

/-- A record whose fields are the canonical forms of what members say. -/
def Record.Holds (r : Record) (members : List (String × Json)) : Prop :=
  ∀ name, r.fields.lookup name = (Assoc.get? members name).map Json.canonical

/-- The members of an object, if all of them are known and in the order of the names. -/
theorem record_canonical (known : (Assoc.keys members).Sublist names) (distinct : names.Nodup) :
    ∃ r, record names (Json.object members).canonical = some r ∧ r.Holds members := by
  obtain ⟨sorted, canonical, rising, found, keys⟩ := canonical_object (distinct.sublist known)
  refine ⟨⟨sorted, false⟩, ?_, found⟩
  have all : sorted.filter (fun member => names.contains member.1) = sorted := by
    refine List.filter_eq_self.mpr fun member inside => ?_
    exact List.contains_iff_mem.mpr (known.subset (keys member inside))
  simp only [canonical, record, looseRecord, recordOfMembers, all,
    distinctNames_of_nodup rising.nodup_keys, if_true]

theorem filter_key {sorted : List (String × Json)} (rising : Assoc.Rising sorted) {name : String}
    {value : Json} (found : Assoc.get? sorted name = some value) :
    sorted.filter (fun member => member.1 == name) = [(name, value)] := by
  induction sorted with
  | nil => cases found
  | cons first sorted ih =>
      obtain ⟨k, v⟩ := first
      rw [List.filter_cons]
      by_cases same : k = name
      · subst same
        have nowhere := rising.get?_rest
        rw [Assoc.get?_cons_self] at found
        cases found
        have none : sorted.filter (fun member => member.1 == k) = [] := by
          refine List.filter_eq_nil_iff.mpr fun member inside same => ?_
          exact Assoc.get?_eq_none_iff.mp nowhere member.2 (eq_of_beq same ▸ inside)
        simp [none]
      · have later : Assoc.get? sorted name = some value := by
          simpa [Ne.symm same] using found
        simpa [same] using ih rising.tail later

theorem tagged_canonical {tag form : String} (numbered : List String)
    (distinct : (tag :: Assoc.keys members).Nodup) :
    tagged tag numbered (Json.object ((tag, .string form) :: members)).canonical =
      some (form, (Json.object members).canonical) := by
  have whole : (Assoc.keys ((tag, Json.string form) :: members)).Nodup := distinct
  obtain ⟨all, allCanonical, allRising, allFound, _⟩ := canonical_object whole
  obtain ⟨absent, distinct⟩ := List.nodup_cons.mp distinct
  obtain ⟨rest, restCanonical, restRising, restFound, _⟩ := canonical_object distinct
  have choice : Assoc.get? all tag = some (.string form) := by
    rw [allFound, Assoc.get?_cons_self]
    rfl
  have others : Assoc.erase all tag = rest := by
    refine (allRising.erase tag).eq_of_get? restRising fun name => ?_
    rw [Assoc.get?_erase, allFound, restFound, Assoc.get?_cons]
    by_cases same : name = tag
    · subst same
      have nowhere : Assoc.get? members name = none := by
        rw [Assoc.get?_eq_none_iff]
        exact fun value member => absent (List.mem_map.mpr ⟨_, member, rfl⟩)
      simp [nowhere]
    · simp [same]
  simp only [Assoc.erase] at others
  simp only [allCanonical, restCanonical, tagged, filter_key allRising choice, alternative, others,
    Option.map_some]

theorem choice_canonical (tag form : String) (numbered : List String)
    (known : (Assoc.keys members).Sublist names) (distinct : (tag :: names).Nodup) :
    ∃ rest r, tagged tag numbered (Json.object ((tag, .string form) :: members)).canonical =
        some (form, rest) ∧ record names rest = some r ∧ r.Holds members := by
  obtain ⟨r, read, holds⟩ := record_canonical known (List.nodup_cons.mp distinct).2
  exact ⟨_, r, tagged_canonical numbered (distinct.sublist (known.cons_cons tag)), read, holds⟩

section Fields

variable {r : Record} {name : String}

theorem text_canonical (s : String) : text (Json.string s).canonical = some s := rfl

theorem truth_canonical (b : Bool) : truth (Json.bool b).canonical = some b := rfl

theorem byte_canonical {n : Nat} (small : n < 256) : byte (Json.whole n).canonical = some n := by
  have bounds : (decide ((0 : Int) ≤ n) && decide ((n : Int) < 256)) = true := by
    simp only [Bool.and_eq_true, decide_eq_true_eq]
    omega
  simp only [Json.whole, Json.canonical, byte, bounds, if_true, Int.toNat_natCast]

theorem list_canonical {item : Json → Option α} {write : α → Json} {l : List α}
    (reads : ∀ x ∈ l, item (write x).canonical = some x) :
    list item (Json.array (l.map write)).canonical = some l := by
  simp only [Json.canonical, Json.canonicalItems_eq, list]
  induction l with
  | nil => rfl
  | cons x l ih =>
      have rest := ih fun y member => reads y (List.mem_cons_of_mem _ member)
      simp only [List.map_cons, List.mapM_cons, reads x List.mem_cons_self, rest]
      rfl

theorem map_canonical {item : Json → Option α} {write : α → Json} {m : Assoc String α}
    (rising : Assoc.Rising m) (reads : ∀ entry ∈ m, item (write entry.2).canonical = some entry.2) :
    map item (Json.object (m.map fun entry => (entry.1, write entry.2))).canonical = some m := by
  have keys : Assoc.Rising (m.map fun entry => (entry.1, (write entry.2).canonical)) :=
    rising.of_keys (by simp [Assoc.keys])
  have sorted : (Json.object (m.map fun entry => (entry.1, write entry.2))).canonical =
      .object (m.map fun entry => (entry.1, (write entry.2).canonical)) := by
    rw [Json.canonical, Json.canonicalMembers_eq, List.map_map]
    exact congrArg Json.object keys.ofList_eq
  have read (l : Assoc String α) (each : ∀ entry ∈ l, item (write entry.2).canonical = some entry.2) :
      (l.map fun entry => (entry.1, (write entry.2).canonical)).mapM
        (fun entry => (item entry.2).map fun a => (entry.1, a)) = some l := by
    induction l with
    | nil => rfl
    | cons entry l ih =>
        have rest := ih fun other member => each other (List.mem_cons_of_mem _ member)
        simp only [List.map_cons, List.mapM_cons, each entry List.mem_cons_self, rest]
        rfl
  simp only [sorted, map, read m reads, Option.map_some, rising.ofList_eq]

/-- What a field is read as, if it may be left out. -/
def orMissing (missing : α) (item : Json → Option α) : Option Json → Option α
  | none => some missing
  | some j => item j.canonical

theorem Record.Holds.required (holds : r.Holds members) (name : String) (item : Json → Option α) :
    r.required name item = (Assoc.get? members name).bind fun j => item j.canonical := by
  rw [Record.required, holds]
  cases Assoc.get? members name <;> rfl

theorem Record.Holds.defaulted (holds : r.Holds members) (name : String) (missing : α)
    (item : Json → Option α) :
    r.defaulted name missing item = orMissing missing item (Assoc.get? members name) := by
  rw [Record.defaulted, holds]
  cases Assoc.get? members name <;> rfl

theorem Record.Holds.optional_eq (holds : r.Holds members) {item : Json → Option α}
    {j : Json} {x : Option α} (found : Assoc.get? members name = some j)
    (read : nullable item j.canonical = some x) : r.optional name item = some x := by
  rw [Record.optional, holds, found]
  exact read

theorem nullable_text (t : Option String) :
    nullable text (Json.optional t).canonical = some t := by
  cases t <;> rfl

theorem orMissing_text (t : Option String) :
    orMissing none (nullable text) (t.map .string) = some t := by
  cases t <;> rfl

theorem orMissing_list {item : Json → Option α} {write : α → Json} {l : List α}
    (reads : ∀ x ∈ l, item (write x).canonical = some x) :
    orMissing [] (list item) (if l = [] then none else some (.array (l.map write))) = some l := by
  by_cases empty : l = []
  · simp [orMissing, empty]
  · simp only [orMissing, empty, if_false]
    exact list_canonical reads

theorem Record.Holds.required_eq (holds : r.Holds members) {item : Json → Option α} {j : Json} {x : α}
    (found : Assoc.get? members name = some j) (read : item j.canonical = some x) :
    r.required name item = some x := by
  rw [holds.required, found]
  exact read

theorem Record.Holds.defaulted_eq (holds : r.Holds members) {item : Json → Option α} {missing x : α}
    {j : Json} (found : Assoc.get? members name = some j) (read : item j.canonical = some x) :
    r.defaulted name missing item = some x := by
  rw [holds.defaulted, found]
  exact read

theorem Record.Holds.list_eq (holds : r.Holds members) {item : Json → Option α} {write : α → Json}
    {l : List α} (found : Assoc.get? members name =
      if l = [] then none else some (.array (l.map write)))
    (reads : ∀ x ∈ l, item (write x).canonical = some x) :
    r.defaulted name [] (list item) = some l := by
  rw [holds.defaulted, found]
  exact orMissing_list reads

end Fields

end Concordance.Decode
