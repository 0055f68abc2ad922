import Mathlib
import Concordance.Command.Basic
import Concordance.Disk.Tree
import Concordance.Proofs.Assoc

/-! # Files that were written

Where a path leads depends on nothing but its parts, once it can be followed. Whatever is
written to a disk can be followed from then on, and at each place stands what was
written there last.
-/

namespace Concordance.FileTree

open FilePath (parts part?)

variable {t t' : FileTree} {place target : List String} {path text : String}

/-- Where one part of a path leads. -/
def step (place : List String) : PathPart → List String
  | .name text => place ++ [text]
  | .up => place.dropLast
  | .here | .root => place

/-- Where a path leads, from the root of a tree. -/
def goal (path : String) : List String := (parts path).foldl step []

/-- No file is a directory, and what holds a directory is a directory. -/
structure Sound (t : FileTree) : Prop where
  apart : ∀ place, t.files.has place = true → t.isDirectory place = false
  closed : ∀ place, t.isDirectory place = true → t.isDirectory place.dropLast = true

theorem Sound.empty : Sound {} where
  apart place found := by cases found
  closed place found := by
    cases place with
    | nil => rfl
    | cons => cases found

/-- What was a directory is one still. -/
def Grown (t t' : FileTree) : Prop :=
  ∀ place, t.isDirectory place = true → t'.isDirectory place = true

theorem part?_cases (piece : String) :
    (stays piece = true ∧ part? piece = none) ∨
      (stays piece = false ∧ piece = ".." ∧ part? piece = some .up) ∨
      (stays piece = false ∧ piece ≠ ".." ∧ part? piece = some (.name piece)) := by
  simp only [stays, part?]
  by_cases still : (piece == "" || piece == ".") = true
  · exact .inl ⟨still, by rw [if_pos still]⟩
  · rw [if_neg still]
    by_cases up : piece = ".."
    · exact .inr (.inl ⟨by simpa using still, up, by simp [up]⟩)
    · exact .inr (.inr ⟨by simpa using still, up, by simp [up]⟩)

theorem follow_goal {pieces : List String} (followed : t.follow place pieces = .ok target) :
    target = (pieces.filterMap part?).foldl step place := by
  induction pieces generalizing place with
  | nil =>
      cases followed
      rfl
  | cons piece rest ih =>
      rw [follow] at followed
      split at followed
      · cases followed
      split at followed
      · cases followed
      rcases part?_cases piece with ⟨still, part⟩ | ⟨moves, rfl, part⟩ | ⟨moves, other, part⟩
      · rw [if_pos still] at followed
        rw [List.filterMap_cons_none part]
        exact ih followed
      · rw [List.filterMap_cons_some part]
        simp only [moves, Bool.false_eq_true, if_false, BEq.rfl, if_true] at followed
        split at followed
        · cases followed
        · exact ih followed
      · rw [List.filterMap_cons_some part]
        simp only [moves, Bool.false_eq_true, if_false, beq_eq_false_iff_ne.mpr other] at followed
        exact ih followed

theorem follow_mono (sound : t'.Sound) (grown : t.Grown t') {pieces : List String}
    (followed : t.follow place pieces = .ok target) : t'.follow place pieces = .ok target := by
  induction pieces generalizing place with
  | nil => exact followed
  | cons piece rest ih =>
      rw [follow] at followed ⊢
      split at followed
      · cases followed
      split at followed
      · cases followed
      rename_i directory
      have there : t'.isDirectory place = true := grown place (by simpa using directory)
      have free : t'.files.has place = false := by
        by_contra file
        simp [sound.apart place (by simpa using file)] at there
      simp only [free, there, Bool.false_eq_true, if_false, Bool.not_true]
      split at followed
      · rename_i still
        rw [if_pos still]
        exact ih followed
      · rename_i moves
        rw [if_neg moves]
        split at followed
        · rename_i up
          rw [if_pos up]
          split at followed
          · cases followed
          · rename_i below
            rw [if_neg below]
            exact ih followed
        · rename_i other
          rw [if_neg other]
          exact ih followed

theorem follow_cons (sound : t.Sound) (there : t.isDirectory place = true) {piece : String}
    (inside : piece = ".." → place ≠ []) (rest : List String) :
    t.follow place (piece :: rest) =
      t.follow ((part? piece).toList.foldl step place) rest := by
  have free : t.files.has place = false := by
    by_contra file
    simp [sound.apart place (by simpa using file)] at there
  rw [follow]
  simp only [free, there, Bool.false_eq_true, if_false, Bool.not_true]
  rcases part?_cases piece with ⟨still, part⟩ | ⟨moves, rfl, part⟩ | ⟨moves, other, part⟩
  · rw [if_pos still, part]
    rfl
  · simp only [moves, Bool.false_eq_true, if_false, BEq.rfl, if_true, part,
      List.isEmpty_eq_false_iff.mpr (inside rfl)]
    rfl
  · simp only [moves, Bool.false_eq_true, if_false, beq_eq_false_iff_ne.mpr other, part]
    rfl

theorem isDirectory_addDirectory (place other : List String) :
    (t.addDirectory place).isDirectory other = (other == place || t.isDirectory other) := by
  rw [addDirectory]
  split
  · rename_i there
    by_cases same : other = place <;> simp [same, there]
  · simp only [isDirectory, List.contains_cons]
    cases other.isEmpty <;> cases other == place <;> rfl

@[simp] theorem files_addDirectory (place : List String) :
    (t.addDirectory place).files = t.files := by
  rw [addDirectory]
  split <;> rfl

theorem Sound.addDirectory (sound : t.Sound) (free : t.files.has place = false)
    (there : t.isDirectory place.dropLast = true) : (t.addDirectory place).Sound where
  apart other file := by
    rw [files_addDirectory] at file
    rw [isDirectory_addDirectory, sound.apart other file, Bool.or_false, beq_eq_false_iff_ne]
    rintro rfl
    simp [free] at file
  closed other directory := by
    rw [isDirectory_addDirectory, Bool.or_eq_true, beq_iff_eq] at directory
    rw [isDirectory_addDirectory, Bool.or_eq_true]
    rcases directory with rfl | before
    · exact .inr there
    · exact .inr (sound.closed other before)

/-- What following pieces of a path and making directories does to a tree. -/
structure Entered (t : FileTree) (place pieces : List String) (t' : FileTree)
    (target : List String) : Prop where
  sound : t'.Sound
  files : t'.files = t.files
  grown : t.Grown t'
  directory : t'.isDirectory target = true
  follow : ∀ rest, t'.follow place (pieces ++ rest) = t'.follow target rest

theorem enter_entered {pieces : List String} (sound : t.Sound) (there : t.isDirectory place = true)
    (entered : t.enter place pieces = some (t', target)) : Entered t place pieces t' target := by
  induction pieces generalizing t place with
  | nil =>
      cases entered
      exact ⟨sound, rfl, fun _ => id, there, fun _ => rfl⟩
  | cons piece rest ih =>
      have onward {u : FileTree} {next : List String} (inner : Entered u next rest t' target)
          (grown : t.Grown u) (files : u.files = t.files) (inside : piece = ".." → place ≠ [])
          (moved : (part? piece).toList.foldl step place = next) :
          Entered t place (piece :: rest) t' target := {
        inner with
        files := inner.files.trans files
        grown := fun other before => inner.grown other (grown other before)
        follow := fun after => by
          have directory := inner.grown _ (grown _ there)
          rw [List.cons_append, follow_cons inner.sound directory inside, moved]
          exact inner.follow after }
      rw [enter] at entered
      rcases part?_cases piece with ⟨still, part⟩ | ⟨moves, rfl, part⟩ | ⟨moves, other, part⟩
      · rw [if_pos still] at entered
        refine onward (ih sound there entered) (fun _ => id) rfl ?_ (by rw [part]; rfl)
        rintro rfl
        cases still
      · simp only [moves, Bool.false_eq_true, if_false, BEq.rfl, if_true] at entered
        split at entered
        · cases entered
        · rename_i below
          exact onward (ih sound (sound.closed place there) entered) (fun _ => id) rfl
            (fun _ => by simpa using below) (by rw [part]; rfl)
      · simp only [moves, Bool.false_eq_true, if_false, beq_eq_false_iff_ne.mpr other] at entered
        split at entered
        · cases entered
        · rename_i free
          have holder : t.isDirectory (place ++ [piece]).dropLast = true := by simpa using there
          have sound' := sound.addDirectory (by simpa using free) holder
          have grown : t.Grown (t.addDirectory (place ++ [piece])) := fun other before => by
            rw [isDirectory_addDirectory, before, Bool.or_true]
          refine onward (ih sound' ?_ entered) grown (files_addDirectory _)
            (fun same => absurd same other) (by rw [part]; rfl)
          rw [isDirectory_addDirectory, BEq.rfl, Bool.true_or]

theorem goal_of_pieces? {pieces : List String} (read : pieces? path = some pieces) :
    pieces = Text.pieces '/' path ∧ goal path = (pieces.filterMap part?).foldl step [] := by
  simp only [pieces?] at read
  split at read
  · cases read
  · rename_i fine
    cases read
    simp only [Bool.or_eq_true, not_or, Bool.not_eq_true] at fine
    refine ⟨rfl, ?_⟩
    simp only [goal, parts, fine.1, Bool.false_eq_true, if_false, List.foldl_append]
    split <;> rfl

/-- What writing a file does to a tree. -/
structure Wrote (t : FileTree) (path text : String) (t' : FileTree) : Prop where
  sound : t'.Sound
  grown : t.Grown t'
  files : t'.files = t.files.put (goal path) text
  located : t'.locate path = .ok (goal path)

theorem write?_wrote (sound : t.Sound) (written : t.write? path text = some t') :
    Wrote t path text t' := by
  simp only [write?, Option.bind_eq_bind, Option.bind_eq_some_iff] at written
  obtain ⟨pieces, read, name, last, ⟨u, target⟩, entered, rest⟩ := written
  split at rest
  · cases rest
  cases rest
  rename_i fine
  simp only [Bool.or_eq_true, not_or, Bool.not_eq_true, beq_iff_eq] at fine
  obtain ⟨⟨moves, other⟩, free⟩ := fine
  have inner := enter_entered sound rfl entered
  have whole : pieces.dropLast ++ [name] = pieces := List.dropLast_append_getLast? name last
  have part : part? name = some (.name name) := by
    rcases part?_cases name with ⟨still, _⟩ | ⟨_, up, _⟩ | ⟨_, _, part⟩
    · simp [still] at moves
    · exact absurd up other
    · exact part
  have followed : u.follow [] pieces = .ok (target ++ [name]) := by
    rw [← whole, inner.follow, follow_cons inner.sound inner.directory fun up => absurd up other,
      part]
    rfl
  obtain ⟨same, leads⟩ := goal_of_pieces? read
  have here : target ++ [name] = goal path := (follow_goal followed).trans leads.symm
  have sound' : Sound { u with files := u.files.put (target ++ [name]) text } := {
    apart := fun place file => by
      rw [Assoc.has_put, Bool.or_eq_true, beq_iff_eq] at file
      rcases file with rfl | before
      · exact free
      · exact inner.sound.apart place before
    closed := inner.sound.closed }
  refine ⟨sound', inner.grown, by rw [← here, ← inner.files], ?_⟩
  have long : path ≠ "" := by
    rintro rfl
    have single : Text.pieces '/' "" = [""] := by decide
    rw [same, single] at last
    cases last
    cases moves
  rw [locate, if_neg (by simpa using long), read, ← here]
  exact follow_mono (t := u) sound' (fun _ before => before) followed

/-- What writing files one after the other does to a tree. -/
structure WroteAll (t : FileTree) (written : List (String × String)) (t' : FileTree) : Prop where
  sound : t'.Sound
  grown : t.Grown t'
  files : t'.files = written.foldl (fun m file => m.put (goal file.1) file.2) t.files
  located : ∀ file ∈ written, t'.locate file.1 = .ok (goal file.1)

theorem inMemory_write (t : FileTree) (path text : String) :
    (Disk.inMemory.write path text).run t =
      match t.write? path text with
      | some u => (true, u)
      | none => (false, t) := by
  simp only [Disk.inMemory, StateT.run_bind, StateT.run_get, pure_bind]
  cases t.write? path text <;> rfl

theorem writeFiles_cons (t : FileTree) (path text : String) (rest : List (String × String)) :
    (Command.writeFiles Disk.inMemory ((path, text) :: rest)).run t =
      match t.write? path text with
      | some u => (Command.writeFiles Disk.inMemory rest).run u
      | none => (some (.unwritableFile path), t) := by
  rw [Command.writeFiles, StateT.run_bind, inMemory_write]
  cases t.write? path text <;> rfl

theorem locate_mono (sound : t'.Sound) (grown : t.Grown t')
    (located : t.locate path = .ok target) : t'.locate path = .ok target := by
  rw [locate] at located ⊢
  split at located
  · cases located
  · rename_i long
    rw [if_neg long]
    split at located
    · cases located
    · exact follow_mono sound grown located

theorem writeFiles_wroteAll {files : List (String × String)} (sound : t.Sound)
    (written : (Command.writeFiles Disk.inMemory files).run t = (none, t')) :
    WroteAll t files t' := by
  induction files generalizing t with
  | nil =>
      cases written
      exact ⟨sound, fun _ => id, rfl, List.forall_mem_nil _⟩
  | cons file rest ih =>
      rw [writeFiles_cons] at written
      split at written
      · rename_i u first
        have wrote := write?_wrote sound first
        have later := ih wrote.sound written
        refine ⟨later.sound, fun place before => later.grown place (wrote.grown place before), ?_,
          List.forall_mem_cons.mpr ⟨?_, later.located⟩⟩
        · rw [later.files, wrote.files]
          rfl
        · exact locate_mono later.sound later.grown wrote.located
      · cases written

/-- Once files are written, at each of them stands what was written to its place last. -/
theorem WroteAll.read {written : List (String × String)} (wrote : WroteAll t written t')
    {file last : String × String} (member : file ∈ written)
    (latest : (written.filter fun f => goal f.1 == goal file.1).getLast? = some last) :
    t'.read file.1 = .ok last.2 := by
  rw [FileTree.read, wrote.located file member]
  simp only [wrote.files, Assoc.get?_foldl_put_last (fun f : String × String => goal f.1) Prod.snd,
    latest, Option.map_some, Option.some_or]

end Concordance.FileTree
