import Mathlib
import Concordance.Command.Basic
import Concordance.Disk.Tree
import Concordance.Proofs.Lock.Normal

/-! # What the comparison of locks reports

Locks are compared page by page, over the recorded pages first and over the current ones
after that. As the entries of both rise strictly, each page is met once in either loop, and
locks that no page tells apart hold the same entries in the same order. So every difference
is reported, each once, and nothing else is.
-/

namespace Concordance

namespace Lock

variable {l recorded current : Lock} {e f : LockEntry} {identifier : String} {change : LockChange}

section Entries

theorem entry_eq_none_iff :
    l.entry? identifier = none ↔ ∀ e ∈ l.entries, e.identifier ≠ identifier := by
  simp [List.find?_eq_none, entry?]

theorem Rising.eq_of_identifier (rising : Rising l.entries) (here : e ∈ l.entries)
    (there : f ∈ l.entries) (same : e.identifier = f.identifier) : e = f := by
  have once : (l.entries.map LockEntry.identifier).Nodup :=
    List.pairwise_map.mpr (rising.imp fun less => less.ne)
  exact List.inj_on_of_nodup_map once here there same

theorem Rising.entry_eq_some_iff (rising : Rising l.entries) :
    l.entry? identifier = some e ↔ e ∈ l.entries ∧ e.identifier = identifier := by
  have found_named {f : LockEntry} (found : l.entry? identifier = some f) :
      f ∈ l.entries ∧ f.identifier = identifier :=
    ⟨List.mem_of_find?_eq_some found, by simpa using List.find?_some found⟩
  refine ⟨found_named, fun ⟨here, named⟩ => ?_⟩
  cases found : l.entry? identifier with
  | none => exact absurd named (entry_eq_none_iff.mp found e here)
  | some f =>
      obtain ⟨there, same⟩ := found_named found
      rw [rising.eq_of_identifier there here (same.trans named.symm)]

theorem Rising.eq_of_mem_iff {entries others : List LockEntry} (rising : Rising entries)
    (rising' : Rising others) (same : ∀ e, e ∈ entries ↔ e ∈ others) : entries = others := by
  have irreflexive : Std.Irrefl fun e f : LockEntry => e.identifier < f.identifier :=
    ⟨fun _ => lt_irrefl _⟩
  have antisymmetric : Std.Antisymm fun e f : LockEntry => e.identifier < f.identifier :=
    ⟨fun _ _ less more => absurd more less.asymm⟩
  exact List.Pairwise.eq_of_mem_iff rising rising' same

end Entries

section Changes

/-- What happened to a page between two locks. -/
inductive Changed (recorded current : Lock) : LockChange → Prop where
  /-- The recorded lock alone has an entry for it. -/
  | removed {e : LockEntry} (before : e ∈ recorded.entries)
      (gone : ∀ f ∈ current.entries, f.identifier ≠ e.identifier) :
      Changed recorded current (.removed e.identifier)
  /-- Both locks have entries for it, and these differ. -/
  | changed {e f : LockEntry} (before : e ∈ recorded.entries) (now : f ∈ current.entries)
      (same : f.identifier = e.identifier) (other : f ≠ e) :
      Changed recorded current (.changed e.identifier)
  /-- The current lock alone has an entry for it. -/
  | added {f : LockEntry} (now : f ∈ current.entries)
      (new : ∀ e ∈ recorded.entries, e.identifier ≠ f.identifier) :
      Changed recorded current (.added f.identifier)

theorem changeOf?_eq_some (found : current.changeOf? e = some change) :
    change = .removed e.identifier ∨ change = .changed e.identifier := by
  rw [changeOf?] at found
  split at found
  · exact .inl (Option.some.inj found).symm
  · split at found
    · cases found
    · exact .inr (Option.some.inj found).symm

theorem mem_changes (rising : Rising current.entries) :
    change ∈ recorded.changes current ↔ Changed recorded current change := by
  rw [changes, List.mem_append, List.mem_filterMap, List.mem_map]
  constructor
  · rintro (⟨e, before, found⟩ | ⟨f, listed, rfl⟩)
    · rw [changeOf?] at found
      split at found
      · rename_i absent
        cases found
        exact .removed before (entry_eq_none_iff.mp absent)
      · rename_i f there
        obtain ⟨now, same⟩ := rising.entry_eq_some_iff.mp there
        split at found
        · cases found
        · rename_i other
          cases found
          exact .changed before now same (by simpa using other)
    · obtain ⟨now, new⟩ := List.mem_filter.mp listed
      exact .added now (entry_eq_none_iff.mp (Option.isNone_iff_eq_none.mp new))
  · intro happened
    cases happened with
    | @removed e before gone =>
        refine .inl ⟨e, before, ?_⟩
        rw [changeOf?, entry_eq_none_iff.mpr gone]
    | @changed e f before now same other =>
        refine .inl ⟨e, before, ?_⟩
        rw [changeOf?, rising.entry_eq_some_iff.mpr ⟨now, same⟩]
        exact if_neg (by simpa using other)
    | @added f now new =>
        have absent : recorded.entry? f.identifier = none := entry_eq_none_iff.mpr new
        exact .inr ⟨f, List.mem_filter.mpr ⟨now, by rw [absent]; rfl⟩, rfl⟩

theorem changes_nodup (rising : Rising recorded.entries) (rising' : Rising current.entries) :
    (recorded.changes current).Nodup := by
  refine List.nodup_append.mpr ⟨?_, ?_, ?_⟩
  · refine List.pairwise_filterMap.mpr (rising.imp fun {e f} less change found other found' => ?_)
    rintro rfl
    rcases changeOf?_eq_some found with rfl | rfl
    · rcases changeOf?_eq_some found' with same | same
      · exact less.ne (LockChange.removed.inj same)
      · cases same
    · rcases changeOf?_eq_some found' with same | same
      · cases same
      · exact less.ne (LockChange.changed.inj same)
  · refine List.pairwise_map.mpr ((rising'.filter _).imp fun less same => ?_)
    exact less.ne (LockChange.added.inj same)
  · rintro change first _ second rfl
    obtain ⟨e, _, found⟩ := List.mem_filterMap.mp first
    obtain ⟨f, _, rfl⟩ := List.mem_map.mp second
    rcases changeOf?_eq_some found with same | same <;> cases same

theorem entries_eq_of_unchanged (rising : Rising recorded.entries)
    (rising' : Rising current.entries) (unchanged : ∀ change, ¬ Changed recorded current change) :
    recorded.entries = current.entries := by
  refine rising.eq_of_mem_iff rising' fun e => ⟨fun before => ?_, fun now => ?_⟩
  · by_contra absent
    by_cases named : ∃ f ∈ current.entries, f.identifier = e.identifier
    · obtain ⟨f, now, same⟩ := named
      exact unchanged _ (.changed before now same fun equal => absent (equal ▸ now))
    · push Not at named
      exact unchanged _ (.removed before named)
  · by_contra absent
    by_cases named : ∃ f ∈ recorded.entries, f.identifier = e.identifier
    · obtain ⟨f, before, same⟩ := named
      exact unchanged _ (.changed before now same.symm fun equal => absent (equal ▸ before))
    · push Not at named
      exact unchanged _ (.added now named)

theorem not_changed_self (rising : Rising l.entries) : ¬ Changed l l change := by
  rintro (⟨before, gone⟩ | ⟨before, now, same, other⟩ | ⟨now, new⟩)
  · exact gone _ before rfl
  · exact other (rising.eq_of_identifier now before same)
  · exact new _ now rfl

end Changes

end Lock

namespace LockChange

theorem line_injective : Function.Injective line := by
  intro change other same
  have letters := congrArg String.toList same
  cases change <;> cases other <;>
    simp [line, String.toList_append, String.toList_inj] at letters
  all_goals rw [letters]

theorem take_line_mem (change : LockChange) :
    change.line.toList.take 2 ∈ [['R', 'E'], ['C', 'H'], ['A', 'D']] := by
  cases change <;> simp [line, String.toList_append]

theorem line_ne {text : String} (other : text.toList.take 2 ∉ [['R', 'E'], ['C', 'H'], ['A', 'D']])
    (change : LockChange) : change.line ≠ text := by
  rintro rfl
  exact other change.take_line_mem

end LockChange

namespace Lock

open Command (check compareLocks outputDirectory)

variable {l recorded current : Lock} {change : LockChange}

section Responses

def checksumLine (recorded current : Lock) : String :=
  s!"checksum {recorded.checksum} -> {current.checksum}"

def refreshLine : String := "run `docweave convert` to refresh docweave.lock"

/-- A response tells what happened between two locks, each thing once. -/
structure Told (recorded current : Lock) (r : Response) : Prop where
  exit : r.exit = if current = recorded then 0 else 1
  changes : ∀ change : LockChange, change.line ∈ r.out ↔ Changed recorded current change
  checksum : checksumLine recorded current ∈ r.out ↔ recorded.checksum ≠ current.checksum
  once : r.out.Nodup
  something : current ≠ recorded →
    ∃ line ∈ r.out, line = checksumLine recorded current ∨ ∃ change : LockChange, line = change.line
  nothingElse : current ≠ recorded → ∀ line ∈ r.out,
    (∃ change : LockChange, line = change.line) ∨ line = checksumLine recorded current ∨
      line = "" ∨ line = refreshLine

theorem take_checksumLine (recorded current : Lock) :
    (checksumLine recorded current).toList.take 2 = ['c', 'h'] := by
  simp only [checksumLine, String.toList_append, List.append_assoc]
  rfl

theorem refreshLine_ne (recorded current : Lock) : refreshLine ≠ checksumLine recorded current := by
  intro same
  have letters := take_checksumLine recorded current
  rw [← same] at letters
  cases letters

/-- What is reported about locks that differ, behind the lines about pages. -/
def closing (recorded current : Lock) : List String :=
  (if recorded.checksum = current.checksum then [] else ["", checksumLine recorded current]) ++
    [refreshLine]

theorem mem_closing {line : String} : line ∈ closing recorded current ↔
    (recorded.checksum ≠ current.checksum ∧ (line = "" ∨ line = checksumLine recorded current)) ∨
      line = refreshLine := by
  rw [closing, List.mem_append, List.mem_singleton]
  split <;> simp_all

theorem closing_nodup (recorded current : Lock) : (closing recorded current).Nodup := by
  have blank : checksumLine recorded current ≠ "" := by
    intro same
    have letters := take_checksumLine recorded current
    rw [same] at letters
    cases letters
  have filled : refreshLine ≠ "" := by decide
  have refresh := refreshLine_ne recorded current
  rw [closing]
  split
  · exact List.nodup_singleton _
  · simp [blank.symm, refresh.symm, filled.symm]

theorem line_not_mem_closing (change : LockChange) : change.line ∉ closing recorded current := by
  rw [mem_closing]
  rintro (⟨_, same | same⟩ | same)
  · exact LockChange.line_ne (by decide) change same
  · exact LockChange.line_ne (by rw [take_checksumLine]; decide) change same
  · exact LockChange.line_ne (by decide) change same

theorem out_compareLocks (different : current ≠ recorded) :
    (compareLocks recorded current).out =
      (recorded.changes current).map LockChange.line ++ closing recorded current := by
  rw [compareLocks, if_neg (by simpa using different), report, closing, List.append_assoc]
  simp only [beq_iff_eq]
  rfl

theorem compareLocks_told_other (rising : Rising recorded.entries) (rising' : Rising current.entries)
    (different : current ≠ recorded) : Told recorded current (compareLocks recorded current) where
  exit := by
    rw [if_neg different, compareLocks, if_neg (by simpa using different)]
  changes change := by
    rw [out_compareLocks different, List.mem_append, or_iff_left (line_not_mem_closing change),
      List.mem_map_of_injective LockChange.line_injective, mem_changes rising']
  checksum := by
    have other : checksumLine recorded current ∉ (recorded.changes current).map LockChange.line := by
      intro listed
      obtain ⟨change, _, same⟩ := List.mem_map.mp listed
      exact LockChange.line_ne (by rw [take_checksumLine]; decide) change same
    rw [out_compareLocks different, List.mem_append, or_iff_right other, mem_closing]
    simp [(refreshLine_ne recorded current).symm]
  once := by
    rw [out_compareLocks different]
    refine List.nodup_append.mpr ⟨?_, closing_nodup _ _, ?_⟩
    · exact (changes_nodup rising rising').map LockChange.line_injective
    · rintro line listed _ behind rfl
      obtain ⟨change, _, rfl⟩ := List.mem_map.mp listed
      exact line_not_mem_closing change behind
  something _ := by
    rw [out_compareLocks different]
    by_cases same : recorded.checksum = current.checksum
    · obtain ⟨change, happened⟩ : ∃ change, Changed recorded current change := by
        by_contra unchanged
        push Not at unchanged
        have entries := entries_eq_of_unchanged rising rising' unchanged
        exact different (by cases recorded; cases current; simp_all)
      refine ⟨change.line, List.mem_append_left _ (List.mem_map_of_mem ?_), .inr ⟨change, rfl⟩⟩
      exact (mem_changes rising').mpr happened
    · exact ⟨_, List.mem_append_right _ (mem_closing.mpr (.inl ⟨same, .inr rfl⟩)), .inl rfl⟩
  nothingElse _ line listed := by
    rw [out_compareLocks different] at listed
    rcases List.mem_append.mp listed with listed | behind
    · obtain ⟨change, _, rfl⟩ := List.mem_map.mp listed
      exact .inl ⟨change, rfl⟩
    · rcases mem_closing.mp behind with ⟨_, blank | checksum⟩ | refresh
      · exact .inr (.inr (.inl blank))
      · exact .inr (.inl checksum)
      · exact .inr (.inr (.inr refresh))

theorem compareLocks_told_same (rising : Rising l.entries) : Told l l (compareLocks l l) := by
  have same : compareLocks l l =
      { out := [s!"All {l.entries.length} external references current"] } := if_pos BEq.rfl
  have letters : (s!"All {l.entries.length} external references current").toList.take 2 =
      ['A', 'l'] := by
    simp only [String.toList_append, List.append_assoc]
    rfl
  rw [same]
  exact {
    exit := (if_pos rfl).symm
    changes := fun change => by
      refine iff_of_false (fun listed => ?_) (not_changed_self rising)
      exact LockChange.line_ne (by rw [letters]; decide) change (List.mem_singleton.mp listed)
    checksum := by
      refine iff_of_false (fun listed => ?_) fun other => other rfl
      have begins := take_checksumLine l l
      rw [List.mem_singleton.mp listed, letters] at begins
      cases begins
    once := List.nodup_singleton _
    something := fun different => absurd rfl different
    nothingElse := fun different => absurd rfl different }

theorem compareLocks_told (rising : Rising recorded.entries) (rising' : Rising current.entries) :
    Told recorded current (compareLocks recorded current) := by
  by_cases same : current = recorded
  · subst same
    exact compareLocks_told_same rising
  · exact compareLocks_told_other rising rising' same

/-- Once the recorded lock and the project are read, the command compares the locks. -/
theorem check_run {output : Option String} {tree tree' : FileTree} {text : String} {project : Project}
    (there : tree.read (FilePath.join (outputDirectory output) fileName) = .ok text)
    (accepted : parse text = .ok recorded)
    (read : (Catalog.readProject Disk.inMemory).run.run tree = (.ok project, tree')) :
    (check Disk.inMemory output).run.run tree =
      (.ok (compareLocks recorded project.publish.lock), tree') := by
  have found : (Disk.inMemory.read (FilePath.join (outputDirectory output) fileName)).run tree =
      pure (.ok text, tree) := by
    rw [← there]
    rfl
  have before : (Command.readLock Disk.inMemory
      (FilePath.join (outputDirectory output) fileName)).run.run tree = pure (.ok recorded, tree) := by
    simp only [Command.readLock, ExceptT.run_bind, ExceptT.run_monadLift, monadLift_self,
      StateT.run_bind, StateT.run_map, found, map_pure, pure_bind, accepted]
    rfl
  have now : (Catalog.readProject Disk.inMemory).run.run tree = pure (.ok project, tree') := read
  simp only [check, ExceptT.run_bind, StateT.run_bind, before, now, pure_bind]
  rfl

/-- A recorded lock that is accepted and the lock of any entries are compared exactly: the response
is a success if they are equal, and otherwise it tells each page that is gone, that is described in
another way and that is new, and other checksums, each once and at least one of these. The command
makes this comparison with what is linked to now. -/
theorem check_told :
    (∀ (text checksum : String) (entries : List LockEntry) (recorded : Lock),
      parse text = .ok recorded →
      Told recorded (ofEntries checksum entries)
        (compareLocks recorded (ofEntries checksum entries))) ∧
    ∀ (output : Option String) (tree tree' : FileTree) (text : String) (recorded : Lock)
      (project : Project), tree.read (FilePath.join (outputDirectory output) fileName) = .ok text →
      parse text = .ok recorded →
      (Catalog.readProject Disk.inMemory).run.run tree = (.ok project, tree') →
      ∃ response, (check Disk.inMemory output).run.run tree = (.ok response, tree') ∧
        Told recorded project.publish.lock response := by
  constructor
  · intro text checksum entries recorded accepted
    exact compareLocks_told (parse_eq_ok_iff.mp accepted).2 (rising_ofEntries _ _)
  · intro output tree tree' text recorded project there accepted read
    exact ⟨_, check_run there accepted read,
      compareLocks_told (parse_eq_ok_iff.mp accepted).2 (rising_ofEntries _ _)⟩

theorem check_told_outdated :
    let recorded : Lock := {
      checksum := "one"
      entries := [⟨"doc://b/A", "symbol", "A", "/a"⟩, ⟨"doc://b/B", "symbol", "B", "/b"⟩] }
    let now : List LockEntry := [⟨"doc://b/C", "symbol", "C", "/c"⟩,
      ⟨"doc://b/B", "symbol", "B", "/elsewhere"⟩, ⟨"doc://b/C", "article", "C", "/c"⟩]
    let tree : FileTree := {
      files := [([".docweave", "docweave.lock"], recorded.text)], directories := [[".docweave"]] }
    Told recorded (ofEntries "two" now) (compareLocks recorded (ofEntries "two" now)) ∧
      "CHANGED doc://b/B" ∈ (compareLocks recorded (ofEntries "two" now)).out ∧
      "checksum one -> two" ∈ (compareLocks recorded (ofEntries "two" now)).out ∧
      ∃ (project : Project) (tree' : FileTree) (response : Response),
        (check Disk.inMemory none).run.run tree = (.ok response, tree') ∧
        Told recorded project.publish.lock response := by
  intro recorded now tree
  have there : tree.read (FilePath.join (outputDirectory none) fileName) = .ok recorded.text := by
    decide +kernel +revert
  have readable : ((Catalog.readProject Disk.inMemory).run.run tree).1.isOk = true := by
    decide +kernel +revert
  have rising : Rising recorded.entries := by
    rw [Rising]
    decide +kernel
  have accepted := parse_text_of_rising rising
  obtain ⟨entries, command⟩ := check_told
  have told := entries _ "two" now recorded accepted
  have moved : Changed recorded (ofEntries "two" now) (.changed "doc://b/B") :=
    .changed (e := ⟨"doc://b/B", "symbol", "B", "/b"⟩)
      (f := ⟨"doc://b/B", "symbol", "B", "/elsewhere"⟩) (by decide)
      (mem_ofEntries_iff.mpr (by decide)) rfl (by decide)
  refine ⟨told, (told.changes _).mpr moved, told.checksum.mpr (by decide), ?_⟩
  cases read : (Catalog.readProject Disk.inMemory).run.run tree with
  | mk result tree' =>
      rw [read] at readable
      cases result with
      | error failure => cases readable
      | ok project =>
          obtain ⟨response, ran, told⟩ :=
            command none tree tree' _ recorded project there accepted read
          exact ⟨project, tree', response, ran, told⟩

end Responses

end Lock

end Concordance
