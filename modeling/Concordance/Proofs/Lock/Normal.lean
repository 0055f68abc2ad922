import Mathlib
import Concordance.Proofs.Lock
import Concordance.Proofs.Lock.Text

/-! # The normal form of locks

The entries of a lock rise strictly by identifier. Sorting keeps the entries of one
identifier in the order in which they were given, so that the first of them is the one
that is kept; and the entries that rise are exactly those that are accepted.
-/

namespace Concordance

namespace LockEntry

variable {e f : LockEntry}

theorem le_iff : le e f = true ↔ e.identifier ≤ f.identifier := by
  rw [le, ← compare_le_iff_le]
  cases compare e.identifier f.identifier <;> decide

theorem le_trans (e f g : LockEntry) (first : le e f = true) (second : le f g = true) :
    le e g = true := by
  rw [le_iff] at first second ⊢
  exact first.trans second

theorem le_total (e f : LockEntry) : (le e f || le f e) = true := by
  rw [Bool.or_eq_true, le_iff, le_iff]
  exact LinearOrder.le_total _ _

end LockEntry

namespace Lock

/-- The entries rise strictly by identifier. -/
def Rising (entries : List LockEntry) : Prop :=
  entries.Pairwise fun e f => e.identifier < f.identifier

variable {checksum : String} {entries : List LockEntry} {e : LockEntry}

theorem rising_cons_cons {f : LockEntry} {rest : List LockEntry} :
    Rising (e :: f :: rest) ↔ e.identifier < f.identifier ∧ Rising (f :: rest) := by
  rw [Rising, List.pairwise_cons, List.forall_mem_cons, ← Rising, and_congr_left_iff]
  intro rising
  have above := (List.pairwise_cons.mp rising).1
  exact and_iff_left_of_imp fun less g member => less.trans (above g member)

theorem disorder?_eq_none_iff : disorder? entries = none ↔ Rising entries := by
  induction entries using disorder?.induct with
  | case1 e f rest below =>
      rw [disorder?, if_pos below, rising_cons_cons]
      simp [not_lt.mpr (LockEntry.le_iff.mp below)]
  | case2 e f rest above ih =>
      rw [disorder?, if_neg above, ih, rising_cons_cons]
      rw [LockEntry.le_iff, not_le] at above
      exact (and_iff_right above).symm
  | case3 entries short =>
      match entries with
      | [] | [e] => simp [disorder?, Rising]
      | e :: f :: rest => exact absurd rfl (short e f rest)

theorem checked_eq_ok_iff {l l' : Lock} : l.checked = .ok l' ↔ l = l' ∧ Rising l.entries := by
  rw [checked, ← disorder?_eq_none_iff]
  cases disorder? l.entries <;> simp

def Sorted (entries : List LockEntry) : Prop :=
  entries.Pairwise fun e f => LockEntry.le e f = true

theorem dropRepeats_sublist (entries : List LockEntry) :
    (dropRepeats entries).Sublist entries := by
  induction entries using dropRepeats.induct with
  | case1 | case2 => rw [dropRepeats]
  | case3 e f rest same ih =>
      rw [dropRepeats, if_pos same]
      exact ih.trans (((List.sublist_cons_self f rest)).cons_cons e)
  | case4 e f rest different ih =>
      rw [dropRepeats, if_neg different]
      exact ih.cons_cons e

theorem Sorted.lt_of_ne {f g : LockEntry} {rest : List LockEntry}
    (sorted : Sorted (e :: f :: rest)) (different : ¬ (e.identifier == f.identifier) = true)
    (member : g ∈ f :: rest) : e.identifier < g.identifier := by
  have first : e.identifier < f.identifier :=
    lt_of_le_of_ne (LockEntry.le_iff.mp ((List.pairwise_cons.mp sorted).1 f List.mem_cons_self))
      (by simpa using different)
  rcases List.mem_cons.mp member with rfl | member
  · exact first
  · have tail := (List.pairwise_cons.mp sorted).2
    exact first.trans_le (LockEntry.le_iff.mp ((List.pairwise_cons.mp tail).1 g member))

theorem Sorted.rising_dropRepeats (sorted : Sorted entries) : Rising (dropRepeats entries) := by
  induction entries using dropRepeats.induct with
  | case1 | case2 => simp [dropRepeats, Rising]
  | case3 e f rest same ih =>
      rw [dropRepeats, if_pos same]
      exact ih (sorted.sublist ((List.sublist_cons_self f rest).cons_cons e))
  | case4 e f rest different ih =>
      rw [dropRepeats, if_neg different]
      exact List.pairwise_cons.mpr
        ⟨fun g member => sorted.lt_of_ne different ((dropRepeats_sublist _).subset member),
          ih (List.pairwise_cons.mp sorted).2⟩

/-- Of entries in order, those are kept that come first of their identifier. -/
theorem Sorted.mem_dropRepeats_iff (sorted : Sorted entries) :
    e ∈ dropRepeats entries ↔ entries.find? (·.identifier == e.identifier) = some e := by
  induction entries using dropRepeats.induct with
  | case1 => simp [dropRepeats]
  | case2 f =>
      rw [dropRepeats, List.mem_singleton]
      constructor
      · rintro rfl
        simp
      · intro found
        exact List.mem_singleton.mp (List.mem_of_find?_eq_some found)
  | case3 f g rest same ih =>
      have fewer := (List.sublist_cons_self g rest).cons_cons f
      rw [dropRepeats, if_pos same, ih (sorted.sublist fewer)]
      rw [List.find?_cons, List.find?_cons, List.find?_cons, eq_of_beq same]
      cases g.identifier == e.identifier <;> rfl
  | case4 f g rest different ih =>
      rw [dropRepeats, if_neg different, List.mem_cons, ih (List.pairwise_cons.mp sorted).2]
      by_cases named : f.identifier = e.identifier
      · have whole : (f :: g :: rest).find? (·.identifier == e.identifier) = some f :=
          List.find?_cons_of_pos (by simpa using named)
        have absent : ¬ (g :: rest).find? (·.identifier == e.identifier) = some e := fun found =>
          (sorted.lt_of_ne different (List.mem_of_find?_eq_some found)).ne named
        rw [whole, or_iff_left absent, Option.some_inj]
        exact ⟨Eq.symm, Eq.symm⟩
      · have whole : (f :: g :: rest).find? (·.identifier == e.identifier) =
            (g :: rest).find? (·.identifier == e.identifier) :=
          List.find?_cons_of_neg (by simpa using named)
        have other : e ≠ f := fun same => named (congrArg LockEntry.identifier same.symm)
        rw [whole, or_iff_right other]

/-- Sorting leaves the first entry of an identifier before the others of it. -/
theorem find?_mergeSort (entries : List LockEntry) (identifier : String) :
    (entries.mergeSort LockEntry.le).find? (·.identifier == identifier) =
      entries.find? (·.identifier == identifier) := by
  let named (e : LockEntry) : Bool := e.identifier == identifier
  have level : (entries.filter named).Pairwise fun e f => LockEntry.le e f = true := by
    refine List.pairwise_of_forall_mem_list fun e here f there => ?_
    have first : e.identifier = identifier := eq_of_beq (List.mem_filter.mp here).2
    have second : f.identifier = identifier := eq_of_beq (List.mem_filter.mp there).2
    rw [LockEntry.le_iff, first, second]
  have kept : (entries.filter named).Sublist (entries.mergeSort LockEntry.le) :=
    List.sublist_mergeSort LockEntry.le_trans LockEntry.le_total level List.filter_sublist
  have inside : (entries.filter named).Sublist ((entries.mergeSort LockEntry.le).filter named) := by
    simpa using kept.filter named
  have same : (entries.mergeSort LockEntry.le).filter named = entries.filter named :=
    (inside.eq_of_length ((List.mergeSort_perm entries _).filter named).length_eq.symm).symm
  rw [← List.head?_filter, ← List.head?_filter]
  exact congrArg List.head? same

theorem ofEntries_of_rising (rising : Rising entries) :
    ofEntries checksum entries = ⟨checksum, entries⟩ := by
  have sorted : entries.Pairwise fun e f => LockEntry.le e f = true :=
    rising.imp fun less => LockEntry.le_iff.mpr less.le
  have distinct : (entries.map LockEntry.identifier).Nodup :=
    List.pairwise_map.mpr (rising.imp fun less => less.ne)
  rw [ofEntries, List.mergeSort_of_pairwise sorted, dropRepeats_eq_self distinct]

theorem rising_ofEntries (checksum : String) (entries : List LockEntry) :
    Rising (ofEntries checksum entries).entries :=
  Sorted.rising_dropRepeats
    (List.pairwise_mergeSort LockEntry.le_trans LockEntry.le_total entries)

theorem mem_ofEntries_iff : e ∈ (ofEntries checksum entries).entries ↔
    entries.find? (·.identifier == e.identifier) = some e := by
  have sorted : Sorted (entries.mergeSort LockEntry.le) :=
    List.pairwise_mergeSort LockEntry.le_trans LockEntry.le_total entries
  rw [ofEntries, sorted.mem_dropRepeats_iff, find?_mergeSort]

theorem parse_eq_ok_iff {text : String} {l : Lock} :
    parse text = .ok l ↔ (Toml.parse? text).bind ofJson? = some l ∧ Rising l.entries := by
  rw [parse]
  cases (Toml.parse? text).bind ofJson? with
  | none => simp
  | some l' =>
      rw [Option.some_inj]
      simp only [checked_eq_ok_iff]
      exact and_congr_right fun same => same ▸ Iff.rfl

theorem parse_text_of_rising {l : Lock} (rising : Rising l.entries) : parse l.text = .ok l := by
  rw [parse_text]
  exact checked_eq_ok_iff.mpr ⟨rfl, rising⟩

/-- The lock of entries has the first of each identifier that was given, and no others. They rise
strictly, so that they make the same lock again, and the text of the lock is accepted and read as
that lock. What is accepted is any text in the form of a lock whose entries rise strictly. -/
theorem normal_form :
    (∀ (checksum : String) (entries : List LockEntry),
      let l := ofEntries checksum entries
      l.checksum = checksum ∧ Rising l.entries ∧
      (∀ e, e ∈ l.entries ↔ entries.find? (·.identifier == e.identifier) = some e) ∧
      ofEntries checksum l.entries = l ∧ parse l.text = .ok l) ∧
    (∀ es : List Entity, parse (ofEntities es).text = .ok (ofEntities es)) ∧
    ∀ (text : String) (l : Lock),
      parse text = .ok l ↔ (Toml.parse? text).bind ofJson? = some l ∧ Rising l.entries := by
  refine ⟨fun checksum entries => ?_, fun es => ?_, fun text l => parse_eq_ok_iff⟩
  · have rising := rising_ofEntries checksum entries
    exact ⟨rfl, rising, fun e => mem_ofEntries_iff, ofEntries_of_rising rising,
      parse_text_of_rising rising⟩
  · exact parse_text_of_rising (rising_ofEntries _ _)

example : (ofEntries "" [⟨"b", "first", "", ""⟩, ⟨"a", "only", "", ""⟩,
    ⟨"b", "second", "", ""⟩]).entries.map LockEntry.kind = ["only", "first"] := by
  cbv

end Lock

end Concordance
