import Mathlib
import Concordance.Proofs.Json.Compact
import Concordance.Proofs.Link.Address
import Concordance.Proofs.Lock.Normal
import Concordance.Proofs.Publication.Codec
import Concordance.Proofs.Lists
import Concordance.Proofs.Text.Bytes

/-! # What the checksum is taken of

The bytes that stand for entities of different pages tell which entities these are, and
nothing about the order in which they were given: sorting by address leaves one order, and
the lines, which are values without blanks, tell the entities apart. So the lock of entities
does not depend on their order either.
-/

namespace Concordance

namespace Entity

theorem le_trans (d e f : Entity) (first : le d e = true) (second : le e f = true) :
    le d f = true :=
  Std.TransCmp.isLE_trans first second

theorem le_total (d e : Entity) : (le d e || le e d) = true :=
  isLE_total d.reference e.reference

theorem reference_eq_of_le {d e : Entity} (first : le d e = true) (second : le e d = true) :
    d.reference = e.reference :=
  Std.LawfulEqOrd.eq_of_compare (Std.OrientedCmp.isLE_antisymm first second)

theorem json_injective : Function.Injective json := by
  intro d e same
  have read := Entity.read d
  rw [same, Entity.read] at read
  exact (Option.some.inj read).symm

def line (e : Entity) : List Char := Json.compactChars e.json ++ ['\n']

theorem toList_checksumText (es : List Entity) :
    (checksumText es).toList = (es.mergeSort le).flatMap line := by
  have written (e : Entity) : (e.json.compact ++ "\n").toList = line e := by
    simp [line, Json.compact, String.toList_append]
  simp only [checksumText, String.toList_join, List.flatMap_map, written]

theorem flatMap_line_injective : Function.Injective fun es : List Entity => es.flatMap line := by
  intro es fs same
  induction es generalizing fs with
  | nil =>
      cases fs with
      | nil => rfl
      | cons f fs => simp [line] at same
  | cons e es ih =>
      cases fs with
      | nil => simp [line] at same
      | cons f fs =>
          simp only [List.flatMap_cons, line, List.append_assoc] at same
          obtain ⟨first, rest⟩ :=
            Json.compactChars_append_inj (textual_json e) (textual_json f) same
          rw [json_injective first, ih (List.append_cancel_left rest)]

/-- Entities of different pages are sorted in one way. -/
theorem mergeSort_eq {es fs : List Entity} (once : (es.map reference).Nodup) (perm : es.Perm fs) :
    es.mergeSort le = fs.mergeSort le :=
  mergeSort_eq_of_perm le_trans le_total perm fun _ here _ there first second =>
    List.inj_on_of_nodup_map once here there (reference_eq_of_le first second)

end Entity

namespace Lock

/-- Entries with identifiers of their own make one lock in whatever order they are. -/
theorem ofEntries_perm_eq {checksum : String} {entries others : List LockEntry}
    (once : (entries.map LockEntry.identifier).Nodup) (perm : entries.Perm others) :
    ofEntries checksum entries = ofEntries checksum others := by
  have sorted : entries.mergeSort LockEntry.le = others.mergeSort LockEntry.le :=
    mergeSort_eq_of_perm LockEntry.le_trans LockEntry.le_total perm
      fun _ here _ there first second =>
        List.inj_on_of_nodup_map once here there
          (le_antisymm (LockEntry.le_iff.mp first) (LockEntry.le_iff.mp second))
  rw [ofEntries, ofEntries, sorted]

end Lock

namespace Entity

/-- For entities of different pages, the bytes that the checksum is taken of tell which entities
there are, and nothing else. Entities with identifiers of their own make one lock in whatever order
they are. -/
theorem checksum_bytes {es : List Entity} (once : (es.map reference).Nodup) (fs : List Entity) :
    (Digest.utf8 (checksumText es) = Digest.utf8 (checksumText fs) ↔ es.Perm fs) ∧
      (es.Perm fs → (es.map fun e => e.reference.identifier).Nodup →
        Lock.ofEntities es = Lock.ofEntities fs) := by
  have texts (perm : es.Perm fs) : checksumText es = checksumText fs := by
    rw [checksumText, checksumText, mergeSort_eq once perm]
  refine ⟨⟨fun same => ?_, fun perm => congrArg Digest.utf8 (texts perm)⟩,
    fun perm identifiers => ?_⟩
  · have lines := congrArg String.toList (Digest.utf8_injective same)
    rw [toList_checksumText, toList_checksumText] at lines
    have sorted : es.mergeSort le = fs.mergeSort le := flatMap_line_injective lines
    exact (List.mergeSort_perm es le).symm.trans (sorted ▸ List.mergeSort_perm fs le)
  · have named : ((es.map LockEntry.ofEntity).map LockEntry.identifier).Nodup := by
      rwa [List.map_map]
    rw [Lock.ofEntities, Lock.ofEntities, checksum, checksum, texts perm]
    exact Lock.ofEntries_perm_eq named (perm.map _)

theorem checksum_bytes_swapped :
    let thing : Entity := {
      summary := "A \"thing\".\n", kind := "symbol", title := "Thing"
      availability := [{ introduced := some "10.15", platform := "macOS" }]
      reference := ⟨"com.example.other", ["Other", "Thing"], none⟩
      url := "/documentation/other/thing" }
    let start : Entity := {
      kind := "article", title := "Start", url := "/documentation/other/start"
      reference := ⟨"com.example.other", ["Other", "Start"], none⟩ }
    Digest.utf8 (checksumText [thing, start]) = Digest.utf8 (checksumText [start, thing]) ∧
      Digest.utf8 (checksumText [thing, start]) ≠
        Digest.utf8 (checksumText [{ start with title := "Begin" }, thing]) ∧
      Lock.ofEntities [thing, start] = Lock.ofEntities [start, thing] := by
  intro thing start
  have once : ([thing, start].map reference).Nodup := by decide
  have swapped : [thing, start].Perm [start, thing] := .swap start thing []
  obtain ⟨bytes, lock⟩ := checksum_bytes once [start, thing]
  obtain ⟨others, _⟩ := checksum_bytes once [{ start with title := "Begin" }, thing]
  exact ⟨bytes.mpr swapped, others.not.mpr (by decide), lock swapped (by decide)⟩

end Entity

end Concordance
