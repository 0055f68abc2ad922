import Mathlib
import Concordance.Proofs.Disk.Tree
import Concordance.Proofs.Text.FilePath
import Concordance.Publication.Files

/-! # Where pages are written

The file of a page is fixed by the lower case of its path. So pages whose paths differ in case
alone share a file, in which the last of them is found after all have been written.
-/

namespace Concordance

open FilePath (parts part? join)

namespace Text

/-- Texts of characters that can be told apart wherever they stand. -/
def PrefixFree (f : Char → List Char) : Prop :=
  ∀ c d : Char, ∀ s t : List Char, f c ++ s = f d ++ t → c = d

theorem PrefixFree.flatMap_injective {f : Char → List Char} (free : PrefixFree f)
    (long : ∀ c, f c ≠ []) : Function.Injective fun s : List Char => s.flatMap f := by
  intro s t same
  induction s generalizing t with
  | nil =>
      cases t with
      | nil => rfl
      | cons d t => simp [long] at same
  | cons c s ih =>
      cases t with
      | nil => simp [long] at same
      | cons d t =>
          simp only [List.flatMap_cons] at same
          obtain rfl := free c d _ _ same
          rw [ih (List.append_cancel_left same)]

end Text

namespace PublishedPage

/-- What a character of a path becomes in the name of a file. -/
def mark (c : Char) : List Char :=
  if c = '%' then ['%', '2', '5']
  else if c = '/' then ['%', '2', 'F']
  else if c = '\x5c' then ['%', '5', 'C']
  else [c]

theorem mark_prefixFree : Text.PrefixFree mark := by
  intro c d s t same
  simp only [mark] at same
  split_ifs at same <;> grind

theorem mark_ne_nil (c : Char) : mark c ≠ [] := by
  rw [mark]
  split_ifs <;> simp

theorem slash_not_mem_mark (c : Char) : '/' ∉ mark c := by
  rw [mark]
  split_ifs with h h' <;> simp_all [Ne.symm]

def escape (text : String) : String := String.ofList (text.toList.flatMap mark)

theorem fileComponent_eq (component : String) :
    fileComponent component = escape (Text.lower component) := by
  simp only [fileComponent, Text.replaceChar, escape, List.flatMap_assoc]
  congr 2
  funext c
  simp only [mark, beq_iff_eq]
  split_ifs with percent slash backslash
  · decide
  · subst slash
    decide
  · subst backslash
    decide
  · simp [slash, backslash]

theorem escape_injective : Function.Injective escape := by
  intro s t same
  exact String.toList_injective
    (mark_prefixFree.flatMap_injective mark_ne_nil (String.ofList_injective same))

theorem slash_not_mem_escape (text : String) : '/' ∉ (escape text).toList := by
  simp only [escape, String.toList_ofList, List.mem_flatMap, not_exists, not_and]
  exact fun c _ => slash_not_mem_mark c

/-- The part of a path that a text stands for, if it stands for any. -/
def partOf (text : String) : PathPart := if text = ".." then .up else .name (escape text)

theorem partOf_injective : Function.Injective partOf := by
  intro s t same
  simp only [partOf] at same
  split_ifs at same with first second
  · exact first.trans second.symm
  · exact escape_injective (PathPart.name.inj same)

theorem part?_escape (text : String) :
    part? (escape text) = if FileTree.stays text then none else some (partOf text) := by
  have same (special : String) (kept : escape special = special) :
      (escape text == special) = (text == special) := by
    rw [Bool.eq_iff_iff, beq_iff_eq, beq_iff_eq, ← kept, escape_injective.eq_iff, kept]
  have stays : FileTree.stays (escape text) = FileTree.stays text := by
    rw [FileTree.stays, FileTree.stays, same "" (by decide), same "." (by decide)]
  have up : escape text = ".." ↔ text = ".." := by
    rw [← beq_iff_eq, same ".." (by decide), beq_iff_eq]
  rcases FileTree.part?_cases (escape text) with
    ⟨still, part⟩ | ⟨moves, above, part⟩ | ⟨moves, other, part⟩
  · rw [part, if_pos (stays ▸ still)]
  · rw [part, if_neg (by simp [← stays, moves]), partOf, if_pos (up.mp above)]
  · rw [part, if_neg (by simp [← stays, moves]), partOf, if_neg (mt up.mpr other)]

/-- What the file of a page is fixed by, below a directory: whether the page is a tutorial, the
names of the pages that hold it and its own name, in lower case. Names that say nothing are left
out. -/
def site (p : PublishedPage) : Bool × List String × Option String :=
  (p.kind == .tutorial,
    (p.address.path.dropLast.map Text.lower).filter fun text => !FileTree.stays text,
    p.address.path.getLast?.map Text.lower)

def rootName (isTutorial : Bool) : String := if isTutorial then "tutorials" else "documentation"

/-- The parts of the path of a page's file, below the directory for all pages. -/
def siteParts : Bool × List String × Option String → List PathPart
  | (isTutorial, _, none) => [.name (rootName isTutorial ++ ".json")]
  | (isTutorial, above, some last) =>
      .name (rootName isTutorial) :: (above.map partOf ++ [.name (escape last ++ ".json")])

variable {dir : String} {a b p : PublishedPage}

theorem join_ne_empty {name : String} (long : dir ≠ "" ∨ name ≠ "") : join dir name ≠ "" := by
  rw [join]
  split
  · rename_i absolute
    rintro rfl
    exact absurd absolute (by decide)
  · split
    · simpa [or_iff_not_imp_left] using long
    · simp

theorem join_append {name : String} (long : name ≠ "") (suffix : String) :
    join dir name ++ suffix = join dir (name ++ suffix) := by
  have same : Text.startsWith "/" (name ++ suffix) = Text.startsWith "/" name := by
    rw [FilePath.startsWith_slash, FilePath.startsWith_slash, String.toList_append,
      List.head?_append_of_ne_nil _ (by simpa using long)]
  simp only [join, same]
  split
  · rfl
  · split <;> simp only [String.append_assoc]

theorem parts_foldl_join {names : List String} (plain : ∀ name ∈ names, '/' ∉ name.toList)
    (long : dir ≠ "") : names.foldl join dir ≠ "" ∧
      parts (names.foldl join dir) = parts dir ++ names.filterMap part? := by
  induction names generalizing dir with
  | nil => exact ⟨long, by simp⟩
  | cons name names ih =>
      rw [List.forall_mem_cons] at plain
      obtain ⟨long', same⟩ := ih plain.2 (join_ne_empty (.inl long))
      refine ⟨long', ?_⟩
      rw [List.foldl_cons, same, FilePath.parts_join plain.1 (.inl long), List.append_assoc]
      cases found : part? name <;> simp [found]

theorem part?_of_long {name : String} (long : 3 ≤ name.length) :
    part? name = some (.name name) := by
  have other (special : String) (short : special.length < 3) : (name == special) = false := by
    rw [beq_eq_false_iff_ne]
    rintro rfl
    omega
  simp [part?, other "" (by decide), other "." (by decide), other ".." (by decide)]

theorem filterMap_fileComponent (path : List String) :
    (path.map fileComponent).filterMap part? =
      ((path.map Text.lower).filter fun text => !FileTree.stays text).map partOf := by
  induction path with
  | nil => rfl
  | cons component path ih =>
      simp only [List.map_cons, List.filter_cons]
      cases still : FileTree.stays (Text.lower component) with
      | true =>
          rw [List.filterMap_cons_none (by rw [fileComponent_eq, part?_escape, if_pos still]), ih]
          rfl
      | false =>
          rw [List.filterMap_cons_some (by
            rw [fileComponent_eq, part?_escape, if_neg (by simp [still])]), ih]
          rfl

theorem parts_root (dir : String) (isTutorial : Bool) {suffix : String}
    (either : suffix = "" ∨ suffix = ".json") :
    parts (join (join dir "data") (rootName isTutorial ++ suffix)) =
      parts dir ++ [.name "data", .name (rootName isTutorial ++ suffix)] := by
  have plain : '/' ∉ (rootName isTutorial ++ suffix).toList ∧
      rootName isTutorial ++ suffix ≠ "." ∧ 3 ≤ (rootName isTutorial ++ suffix).length := by
    rcases either with rfl | rfl <;> cases isTutorial <;> decide
  rw [FilePath.parts_join plain.1 (.inr plain.2.1), part?_of_long plain.2.2,
    FilePath.parts_join (by decide) (.inr (by decide)), List.append_assoc]
  rfl

theorem file_none (ends : p.address.path.getLast? = none) :
    p.file dir = join (join dir "data") (rootName (p.kind == .tutorial)) ++ ".json" := by
  simp only [file, ends]
  rfl

theorem file_some {last : String} (ends : p.address.path.getLast? = some last) :
    p.file dir = join
      ((p.address.path.dropLast.map fileComponent).foldl join
        (join (join dir "data") (rootName (p.kind == .tutorial))))
      (fileComponent last ++ ".json") := by
  simp only [file, ends]
  rfl

theorem rootName_ne_empty (isTutorial : Bool) : rootName isTutorial ≠ "" := by
  cases isTutorial <;> decide

theorem parts_file (dir : String) (p : PublishedPage) :
    parts (p.file dir) = parts dir ++ .name "data" :: siteParts p.site := by
  have named := rootName_ne_empty (p.kind == .tutorial)
  cases ends : p.address.path.getLast? with
  | none =>
      simp only [file_none ends, ends, site, Option.map_none, siteParts, join_append named]
      exact parts_root dir _ (.inr rfl)
  | some last =>
      have plain : '/' ∉ (fileComponent last ++ ".json").toList := by
        rw [String.toList_append, List.mem_append, not_or, fileComponent_eq]
        exact ⟨slash_not_mem_escape _, by decide⟩
      have plainAbove : ∀ name ∈ p.address.path.dropLast.map fileComponent, '/' ∉ name.toList := by
        intro name member
        obtain ⟨component, _, rfl⟩ := List.mem_map.mp member
        exact fileComponent_eq component ▸ slash_not_mem_escape _
      have base : parts (join (join dir "data") (rootName (p.kind == .tutorial))) =
          parts dir ++ [.name "data", .name (rootName (p.kind == .tutorial))] := by
        simpa using parts_root dir (p.kind == .tutorial) (.inl rfl)
      have rooted : join (join dir "data") (rootName (p.kind == .tutorial)) ≠ "" :=
        join_ne_empty (.inr named)
      obtain ⟨long, above⟩ := parts_foldl_join plainAbove rooted
      have own : part? (fileComponent last ++ ".json") =
          some (.name (fileComponent last ++ ".json")) :=
        part?_of_long (by
          rw [String.length_append]
          exact le_add_left (by decide))
      simp only [ends, site, Option.map_some, siteParts]
      rw [file_some ends, FilePath.parts_join plain (.inl long), above, base, own,
        filterMap_fileComponent, ← fileComponent_eq]
      simp

theorem siteParts_inj (same : siteParts a.site = siteParts b.site) : a.site = b.site := by
  have root : rootName (a.kind == .tutorial) = rootName (b.kind == .tutorial) →
      (a.kind == .tutorial) = (b.kind == .tutorial) := by
    cases a.kind == .tutorial <;> cases b.kind == .tutorial <;> decide
  have suffixed {s t : String} (same : s ++ ".json" = t ++ ".json") : s = t :=
    String.toList_injective (by simpa using congrArg String.toList same)
  cases ends : a.address.path.getLast? with
  | none =>
      cases ends' : b.address.path.getLast? with
      | none =>
          simp only [site, List.getLast?_eq_none_iff.mp ends, List.getLast?_eq_none_iff.mp ends',
            List.getLast?_nil, Option.map_none, siteParts, List.cons.injEq, PathPart.name.injEq,
            and_true] at same ⊢
          rw [root (suffixed same)]
      | some last => simp [site, ends, ends', siteParts] at same
  | some last =>
      cases ends' : b.address.path.getLast? with
      | none => simp [site, ends, ends', siteParts] at same
      | some last' =>
          simp only [site, ends, ends', Option.map_some, siteParts, List.cons.injEq,
            PathPart.name.injEq] at same ⊢
          obtain ⟨above, own⟩ := List.append_inj' same.2
            (by rw [List.length_singleton, List.length_singleton])
          have own := PathPart.name.inj (List.singleton_inj.mp own)
          rw [root same.1, List.map_injective_iff.mpr partOf_injective above,
            escape_injective (suffixed own)]

theorem parts_file_iff (dir : String) (a b : PublishedPage) :
    parts (a.file dir) = parts (b.file dir) ↔ a.site = b.site := by
  rw [parts_file, parts_file, List.append_right_inj, List.cons.injEq, and_iff_right rfl]
  exact ⟨siteParts_inj, congrArg siteParts⟩

/-- The pages that hold the page have names of their own, so that its file is below the directory
for all pages. -/
def Inside (p : PublishedPage) : Prop := ".." ∉ p.site.2.1

instance : Decidable p.Inside := inferInstanceAs (Decidable (".." ∉ p.site.2.1))

theorem foldl_step_names (place names : List String) :
    (names.map PathPart.name).foldl FileTree.step place = place ++ names := by
  induction names generalizing place with
  | nil => simp
  | cons name names ih =>
      rw [List.map_cons, List.foldl_cons, FileTree.step, ih, List.append_assoc]
      rfl

theorem Inside.goal (inside : p.Inside) (dir : String) :
    ∃ names : List String, names ≠ [] ∧ siteParts p.site = names.map .name ∧
      FileTree.goal (p.file dir) = FileTree.goal dir ++ "data" :: names := by
  have named : ∃ names : List String, names ≠ [] ∧ siteParts p.site = names.map .name := by
    rw [Inside] at inside
    generalize p.site = site at inside
    obtain ⟨isTutorial, above, last⟩ := site
    cases last with
    | none => exact ⟨[rootName isTutorial ++ ".json"], List.cons_ne_nil _ _, rfl⟩
    | some last =>
        refine ⟨rootName isTutorial :: (above.map escape ++ [escape last ++ ".json"]),
          List.cons_ne_nil _ _, ?_⟩
        have plain : above.map partOf = (above.map escape).map .name := by
          rw [List.map_map]
          refine List.map_congr_left fun text member => ?_
          have other : text ≠ ".." := fun up => inside (up ▸ member)
          rw [partOf, if_neg other]
          rfl
        simp only [siteParts, plain, List.map_cons, List.map_append, List.map_nil]
  obtain ⟨names, some, same⟩ := named
  refine ⟨names, some, same, ?_⟩
  rw [FileTree.goal, parts_file, List.foldl_append, same]
  exact foldl_step_names _ ("data" :: names)

theorem goal_file_iff (first : a.Inside) (second : b.Inside) (dir : String) :
    FileTree.goal (a.file dir) = FileTree.goal (b.file dir) ↔ a.site = b.site := by
  obtain ⟨names, _, same, here⟩ := first.goal dir
  obtain ⟨names', _, same', there⟩ := second.goal dir
  rw [here, there, List.append_right_inj, List.cons.injEq, and_iff_right rfl]
  constructor
  · rintro rfl
    exact siteParts_inj (same.trans same'.symm)
  · intro sites
    refine List.map_injective_iff.mpr (fun _ _ => PathPart.name.inj) ?_
    rw [← same, ← same', sites]

end PublishedPage

namespace Publication

open PublishedPage

variable {dir : String} {a : PublishedPage}

theorem goal_ne_goal_join (inside : a.Inside) {name : String} (plain : '/' ∉ name.toList)
    (long : 3 ≤ name.length) : FileTree.goal (join dir name) ≠ FileTree.goal (a.file dir) := by
  obtain ⟨names, some, _, there⟩ := inside.goal dir
  have other : name ≠ "." := by
    rintro rfl
    exact absurd long (by decide)
  have here : FileTree.goal (join dir name) = FileTree.goal dir ++ [name] := by
    rw [FileTree.goal, FilePath.parts_join plain (.inr other), part?_of_long long,
      List.foldl_append]
    rfl
  rw [here, there]
  intro same
  have lengths := congrArg List.length (List.append_cancel_left same)
  have := List.length_pos_of_ne_nil some
  simp only [List.length_cons, List.length_nil] at lengths
  omega

theorem filter_files {pub : Publication} (inside : ∀ page ∈ pub.pages, page.Inside)
    (member : a ∈ pub.pages) :
    ((pub.files dir).filter fun f => FileTree.goal f.1 == FileTree.goal (a.file dir)) =
      (pub.pages.filter fun b => b.site == a.site).map fun page =>
        (page.file dir, jsonText page.rendered.json) := by
  have sites : pub.pages.filter (fun b =>
      FileTree.goal (b.file dir) == FileTree.goal (a.file dir)) =
        pub.pages.filter fun b => b.site == a.site :=
    List.filter_congr fun b there => by
      rw [Bool.eq_iff_iff, beq_iff_eq, beq_iff_eq]
      exact goal_file_iff (inside b there) (inside a member) dir
  have apart (name : String) (plain : '/' ∉ name.toList) (long : 3 ≤ name.length) :
      (FileTree.goal (join dir name) == FileTree.goal (a.file dir)) = false :=
    beq_eq_false_iff_ne.mpr (goal_ne_goal_join (inside a member) plain long)
  simp only [files, List.filter_append, List.filter_map, ← sites,
    List.filter_cons, List.filter_nil, apart referencesFile (by decide) (by decide),
    apart entitiesFile (by decide) (by decide), apart Lock.fileName (by decide) (by decide),
    Bool.false_eq_true, if_false, List.append_nil]
  rfl

/-- Two pages are written to one path if and only if their sites are the same, that is, if their
paths differ in nothing but case and in names that say nothing. Once everything is written, at the
path of a page stands the last page of its site, so that a page is lost if a later one has its site,
and no other page is. -/
theorem files_read (pub : Publication) (dir : String) :
    (∀ a ∈ pub.pages, ∀ b ∈ pub.pages,
      parts (a.file dir) = parts (b.file dir) ↔ a.site = b.site) ∧
    ∀ t t' : FileTree, t.Sound → (∀ page ∈ pub.pages, page.Inside) →
      (Command.writeFiles Disk.inMemory (pub.files dir)).run t = (none, t') →
      ∀ a ∈ pub.pages, ∃ b, (pub.pages.filter fun b => b.site == a.site).getLast? = some b ∧
        t'.read (a.file dir) = .ok (jsonText b.rendered.json) := by
  refine ⟨fun a _ b _ => parts_file_iff dir a b, fun t t' sound inside written a member => ?_⟩
  have here : a ∈ pub.pages.filter fun b => b.site == a.site :=
    List.mem_filter.mpr ⟨member, BEq.rfl⟩
  obtain ⟨b, last⟩ : ∃ b, (pub.pages.filter fun b => b.site == a.site).getLast? = some b :=
    ⟨_, List.getLast?_eq_some_getLast (List.ne_nil_of_mem here)⟩
  have listed : (a.file dir, jsonText a.rendered.json) ∈ pub.files dir :=
    List.mem_append_left _ (List.mem_map_of_mem member)
  have latest : ((pub.files dir).filter fun f =>
      FileTree.goal f.1 == FileTree.goal (a.file dir)).getLast? =
        some (b.file dir, jsonText b.rendered.json) := by
    rw [filter_files inside member, List.getLast?_map, last, Option.map_some]
  exact ⟨b, last, (FileTree.writeFiles_wroteAll sound written).read listed latest⟩

/-- Of two articles whose names differ in case alone, the first is lost. -/
theorem files_read_case :
    let article (name : String) : Page := {
      address := ⟨"com.example.kit", ["Kit", name], none⟩, kind := .article, name := name
      humanPath := ["Kit", name], parent := none, content := .article name {} }
    let pub : Publication := Project.publish {
      settings := {}
      atlas := ((({ atlas := { bundle := "com.example.kit" } } : AtlasBuild).insert
        (article "Value")).insert (article "value")).atlas }
    ∃ a b t', pub.pages = [a, b] ∧
      a.rendered.identifier = "doc://com.example.kit/documentation/Kit/Value" ∧
      b.rendered.identifier = "doc://com.example.kit/documentation/Kit/value" ∧
      parts (a.file "out") = parts (b.file "out") ∧
      (Command.writeFiles Disk.inMemory (pub.files "out")).run {} = (none, t') ∧
      t'.read (a.file "out") = .ok (jsonText b.rendered.json) := by
  intro article pub
  have facts : pub.pages.length = 2 ∧
      pub.pages.map (fun page => page.rendered.identifier) =
        ["doc://com.example.kit/documentation/Kit/Value",
          "doc://com.example.kit/documentation/Kit/value"] ∧
      pub.pages.map (fun page => page.site) = List.replicate 2 (false, ["kit"], some "value") ∧
      ((Command.writeFiles Disk.inMemory (pub.files "out")).run {}).1 = none := by
    decide +kernel
  clear_value pub
  obtain ⟨two, identifiers, sites, done⟩ := facts
  obtain ⟨a, b, pages⟩ := List.length_eq_two.mp two
  simp only [pages, List.map_cons, List.map_nil, List.cons.injEq, List.replicate_succ,
    List.replicate_zero, and_true] at identifiers sites
  have same : a.site = b.site := sites.1.trans sites.2.symm
  have inside : ∀ page ∈ pub.pages, page.Inside := by
    rw [pages]
    simp only [List.forall_mem_cons, Inside, sites]
    decide
  have first : a ∈ pub.pages := pages ▸ List.mem_cons_self
  have second : b ∈ pub.pages := pages ▸ List.mem_cons_of_mem _ List.mem_cons_self
  have written : _ = (none, _) := Prod.ext done rfl
  obtain ⟨alike, stands⟩ := files_read pub "out"
  obtain ⟨last, there, read⟩ := stands {} _ .empty inside written a first
  have found : last = b := by
    simpa [pages, same] using there.symm
  exact ⟨a, b, _, pages, identifiers.1, identifiers.2, (alike a first b second).mpr same,
    written, found ▸ read⟩

end Publication

end Concordance
