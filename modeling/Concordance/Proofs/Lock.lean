import Mathlib
import Concordance.Lock

/-! # Locks

Entries with identifiers of their own are all in the lock.
-/

namespace Concordance.Lock

theorem dropRepeats_eq_self {entries : List LockEntry}
    (distinct : (entries.map LockEntry.identifier).Nodup) : dropRepeats entries = entries := by
  induction entries using dropRepeats.induct with
  | case1 | case2 => rw [dropRepeats]
  | case3 e f rest same =>
      simp [eq_of_beq same] at distinct
  | case4 e f rest different ih =>
      rw [dropRepeats, if_neg different, ih (List.nodup_cons.mp distinct).2]

/-- If no two entries share an identifier, each of them is an entry of the lock. -/
theorem ofEntries_perm (checksum : String) {entries : List LockEntry}
    (distinct : (entries.map LockEntry.identifier).Nodup) :
    (ofEntries checksum entries).entries.Perm entries := by
  have sorted := List.mergeSort_perm entries LockEntry.le
  rw [ofEntries, dropRepeats_eq_self ((sorted.map LockEntry.identifier).nodup_iff.mpr distinct)]
  exact sorted

end Concordance.Lock
