import Mathlib.Data.List.Induction
import JasmineConversion.Files.Tree
import JasmineConversion.Proofs.Entries
import JasmineConversion.Proofs.Files.FileName

/-! # Places in a tree of files

A path that leads to a file, or to where one can be made, names a place in the tree. What is made or
written changes this place alone, and takes away nothing: all paths to directories and files lead
there as before.
-/

namespace JasmineConversion

open Text FileName

/-- The place in the tree that a destination has, unless it is a directory. -/
def Destination.place? : Destination → Option Place
  | file place _ => some place
  | vacant place => some place
  | _ => none

namespace FileTree

variable {tree after last : FileTree} {path : Path} {place : Place}

/-- A name that a file or a directory can have. -/
structure IsName (name : FileName) : Prop where
  nonempty : name ≠ []
  noDot : name ≠ FileName.encode Path.dot
  noParent : name ≠ FileName.parent
  noSlash : UInt8.ofNat Path.slash ∉ name
  noNul : 0 ∉ name

/-- A tree of files as there can be one: no place is taken twice, and all names are such. -/
structure WellFormed (tree : FileTree) : Prop where
  distinct : (tree.entries.map Prod.fst).Nodup
  named : ∀ entry ∈ tree.entries, ∀ name ∈ entry.1, IsName name

instance (name : FileName) : Decidable (IsName name) :=
  decidable_of_iff (name ≠ [] ∧ name ≠ FileName.encode Path.dot ∧ name ≠ FileName.parent ∧
      UInt8.ofNat Path.slash ∉ name ∧ 0 ∉ name)
    ⟨fun ⟨nonempty, noDot, noParent, noSlash, noNul⟩ => ⟨nonempty, noDot, noParent, noSlash, noNul⟩,
      fun h => ⟨h.nonempty, h.noDot, h.noParent, h.noSlash, h.noNul⟩⟩

instance (tree : FileTree) : Decidable tree.WellFormed :=
  decidable_of_iff
    ((tree.entries.map Prod.fst).Nodup ∧ ∀ entry ∈ tree.entries, ∀ name ∈ entry.1, IsName name)
    ⟨fun h => ⟨h.1, h.2⟩, fun h => ⟨h.distinct, h.named⟩⟩

/-- The string for the name of a file is a part that a path shows. -/
theorem IsName.isPart {name : FileName} (isName : IsName name) : Path.IsPart (decode name) where
  nonempty empty := isName.nonempty (by rw [← encode_decode name, empty]; rfl)
  noDot same := isName.noDot (by rw [← same, encode_decode])
  noSlash member := isName.noSlash (mem_of_mem_decode (by decide) member)

/-- The name of a file can be handed to the system. -/
theorem IsName.hazard? {name : FileName} (isName : IsName name) : hazard? (decode name) = none :=
  hazard?_decode isName.noNul

/-! ## Looking up -/

/-- What is put is at its place, and all else is where it was. -/
@[simp] theorem get?_put (tree : FileTree) (place : Place) (entry : FileEntry) (other : Place) :
    (tree.put place entry).get? other = if place = other then some entry else tree.get? other :=
  Entries.get?_put other place entry tree.entries

/-- What is put does not change the working directory. -/
@[simp] theorem base_put (tree : FileTree) (place : Place) (entry : FileEntry) :
    (tree.put place entry).base = tree.base := rfl

/-- A tree of some files and directories below the working directory, which is the root. -/
def ofNames (named : List (List String × FileEntry)) : FileTree where
  entries := named.map fun entry => (entry.1.map fun name => FileName.encode (.ofString name), entry.2)

/-- A path that can be looked up. -/
structure Walkable (path : Path) : Prop where
  clean : path.hazard? = none
  short : (FileName.encode path.codes).length ≤ pathLimit

/-- A path names a place: its parts before the last one lead to the directory of the place. -/
inductive Names (tree : FileTree) (path : Path) : Place → Prop
  | intro {front : List FileName} {directory : Place} {name : FileName} (walkable : Walkable path)
      (parts : path.parts.map FileName.encode = front ++ [name])
      (above : front.foldl tree.walkStep (tree.start path) = .directory directory)
      (short : name.length ≤ nameLimit) (plain : name ≠ FileName.parent) :
      Names tree path (directory ++ [name])

/-- A name that is not too long and does not lead upwards is looked up in the directory. -/
theorem walkStep_name {directory : Place} {name : FileName} (short : name.length ≤ nameLimit)
    (plain : name ≠ FileName.parent) :
    walkStep tree (.directory directory) name = tree.entryAt (directory ++ [name]) := by
  rw [walkStep, if_neg (Nat.not_lt.mpr short), if_neg plain]

/-- A path that can be looked up is followed name by name. -/
theorem walk_of_walkable (walkable : Walkable path) :
    tree.walk path = (path.parts.map FileName.encode).foldl tree.walkStep (tree.start path) := by
  rw [walk, walkable.clean, Option.isSome_none, if_neg Bool.false_ne_true,
    if_neg (Nat.not_lt.mpr walkable.short)]

/-- Only a path that can be looked up leads anywhere. -/
theorem walkable_of_walk
    (leads : (tree.walk path).isThere = true ∨ (tree.walk path).place?.isSome = true) :
    Walkable path := by
  unfold walk at leads
  split at leads
  · rcases leads with leads | leads <;> cases leads
  · next clean =>
    split at leads
    · rcases leads with leads | leads <;> cases leads
    · next fits => exact ⟨by simpa using clean, Nat.not_lt.mp fits⟩

/-- What is at the place that a path names is where the path leads. -/
theorem Names.walk (isNamed : Names tree path place) : tree.walk path = tree.entryAt place := by
  obtain ⟨walkable, parts, above, short, plain⟩ := isNamed
  rw [walk_of_walkable walkable, parts, List.foldl_append, above]
  exact walkStep_name short plain

/-- A step from a directory does not depend on the entries of the tree and does not lead downwards, or
it looks a name up. -/
theorem walkStep_cases (directory : Place) (name : FileName) :
    (∃ result : Destination, (∀ tree, walkStep tree (.directory directory) name = result) ∧
      result.place? = none ∧ (result.isDirectory = true → name = FileName.parent)) ∨
    name.length ≤ nameLimit ∧ name ≠ FileName.parent := by
  by_cases short : name.length ≤ nameLimit
  · by_cases upwards : name = FileName.parent
    · refine .inl ⟨.directory directory.dropLast, fun tree => ?_, rfl, fun _ => upwards⟩
      rw [walkStep, if_neg (Nat.not_lt.mpr short), if_pos upwards]
    · exact .inr ⟨short, upwards⟩
  · exact .inl ⟨.tooLong, fun _ => if_pos (Nat.not_le.mp short), rfl, nofun⟩

/-- Only from a directory does a step lead anywhere. -/
theorem exists_directory_of_walkStep {found : Destination} {name : FileName}
    (leads : (tree.walkStep found name).isThere = true ∨
      (tree.walkStep found name).place?.isSome = true) :
    ∃ directory, found = .directory directory := by
  cases found <;> simp_all [walkStep, Destination.isThere, Destination.place?]

/-- A step that leads to a place leads there from the directory above. -/
theorem place_walkStep {found : Destination} {name : FileName}
    (leads : (tree.walkStep found name).place? = some place) :
    ∃ directory, found = .directory directory ∧ name.length ≤ nameLimit ∧
      name ≠ FileName.parent ∧ place = directory ++ [name] := by
  obtain ⟨directory, rfl⟩ := exists_directory_of_walkStep (.inr (by rw [leads]; rfl))
  rcases walkStep_cases directory name with ⟨result, step, nowhere, -⟩ | ⟨short, plain⟩
  · rw [step, nowhere] at leads
    cases leads
  · refine ⟨directory, rfl, short, plain, ?_⟩
    rw [walkStep_name short plain, entryAt] at leads
    split at leads <;> cases leads <;> rfl

/-- A path that leads to a file, or to where there is nothing yet, names its place. -/
theorem names_of_place (leads : (tree.walk path).place? = some place) : Names tree path place := by
  have walkable : Walkable path := walkable_of_walk (.inr (by rw [leads]; rfl))
  rw [walk_of_walkable walkable] at leads
  rcases List.eq_nil_or_concat (path.parts.map FileName.encode) with none | ⟨front, name, parts⟩
  · rw [none] at leads
    cases leads
  · rw [List.concat_eq_append] at parts
    rw [parts, List.foldl_append] at leads
    obtain ⟨directory, above, short, plain, rfl⟩ := place_walkStep leads
    exact ⟨walkable, parts, above, short, plain⟩

/-- A path names one place only. -/
theorem Names.unique {place' : Place} (isNamed : Names tree path place)
    (isNamed' : Names tree path place') : place = place' := by
  have same := isNamed.walk.symm.trans isNamed'.walk
  unfold entryAt at same
  split at same <;> split at same <;> cases same <;> rfl

/-- The last name of a place is that of each path to it. -/
theorem Names.name_eq (isNamed : Names tree path place) :
    FileName.encode path.name = place.getLastD [] := by
  obtain ⟨-, parts, -, -, -⟩ := isNamed
  obtain ⟨above, here, split, -, isLast⟩ := List.map_eq_append_iff.mp parts
  obtain ⟨part, rfl, rfl⟩ := List.map_eq_singleton_iff.mp isLast
  rw [Path.name, split, List.getLastD_concat, List.getLastD_concat]

/-- A file is found at its own place. -/
theorem entryAt_eq_file_iff {other : Place} {content : List UInt8} :
    tree.entryAt place = .file other content ↔
      other = place ∧ tree.get? place = some (.file content) := by
  unfold entryAt
  split <;> next there => simp [there, eq_comm]

/-- Nothing is found at a vacant place. -/
theorem entryAt_eq_vacant_iff {other : Place} :
    tree.entryAt place = .vacant other ↔ other = place ∧ tree.get? place = none := by
  unfold entryAt
  split <;> next there => simp [there, eq_comm]

/-- A destination that has a place is reached by naming the place. -/
theorem walk_eq_iff_of_place {found : Destination} (isPlace : found.place? = some place) :
    tree.walk path = found ↔ Names tree path place ∧ tree.entryAt place = found := by
  constructor
  · rintro rfl
    have isNamed := names_of_place isPlace
    exact ⟨isNamed, isNamed.walk.symm⟩
  · rintro ⟨isNamed, there⟩
    rw [isNamed.walk, there]

/-- A path leads to a file exactly if it names the place of the file. -/
theorem walk_eq_file_iff {content : List UInt8} :
    tree.walk path = .file place content ↔
      Names tree path place ∧ tree.get? place = some (.file content) := by
  rw [walk_eq_iff_of_place rfl, entryAt_eq_file_iff, and_iff_right rfl]

/-- A path leads to where there is nothing exactly if it names such a place. -/
theorem walk_eq_vacant_iff :
    tree.walk path = .vacant place ↔ Names tree path place ∧ tree.get? place = none := by
  rw [walk_eq_iff_of_place rfl, entryAt_eq_vacant_iff, and_iff_right rfl]

/-- A path that leads to a file does not end upwards. -/
theorem ne_parent_of_walk_eq_file {base : Path} {directories : List Codes} {name : Codes}
    {content : List UInt8}
    (leads : tree.walk (base.append ⟨0, directories ++ [name]⟩) = .file place content) :
    FileName.encode name ≠ FileName.parent := by
  obtain ⟨-, parts, -, -, plain⟩ := (walk_eq_file_iff.mp leads).1
  rw [Path.append_relative, ← List.append_assoc, List.map_append] at parts
  obtain ⟨-, same⟩ := List.append_inj' parts rfl
  rw [(List.cons.inj same).1]
  exact plain

/-! ## Trees that keep what was there -/

/-- What a tree holds is still there in a later one. A file may have another content. -/
structure Keeps (tree after : FileTree) : Prop where
  base : after.base = tree.base
  directories : ∀ place, tree.get? place = some .directory → after.get? place = some .directory
  files : ∀ place content, tree.get? place = some (.file content) →
    ∃ content', after.get? place = some (.file content')

/-- A later tree has nothing new but directories. -/
structure Grows (tree after : FileTree) : Prop where
  base : after.base = tree.base
  entries : ∀ place, after.get? place = tree.get? place ∨
    tree.get? place = none ∧ after.get? place = some .directory

/-- A tree keeps what it holds. -/
theorem Keeps.refl (tree : FileTree) : Keeps tree tree :=
  ⟨rfl, fun _ there => there, fun _ content there => ⟨content, there⟩⟩

/-- What is kept twice is kept. -/
theorem Keeps.trans (first : Keeps tree after) (second : Keeps after last) : Keeps tree last where
  base := second.base.trans first.base
  directories place there := second.directories place (first.directories place there)
  files place content there := by
    obtain ⟨content', there⟩ := first.files place content there
    exact second.files place content' there

/-- A tree has nothing new beside itself. -/
theorem Grows.refl (tree : FileTree) : Grows tree tree :=
  ⟨rfl, fun _ => .inl rfl⟩

/-- If twice only directories are new, then only directories are new. -/
theorem Grows.trans (first : Grows tree after) (second : Grows after last) : Grows tree last := by
  refine ⟨second.base.trans first.base, fun place => ?_⟩
  rcases second.entries place with same | ⟨absent, made⟩
  · rw [same]
    exact first.entries place
  · rcases first.entries place with same | ⟨-, there⟩
    · exact .inr ⟨same ▸ absent, made⟩
    · rw [absent] at there
      cases there

/-- What was there is not new. -/
theorem Grows.get?_of_isSome {entry : FileEntry} (grows : Grows tree after)
    (there : tree.get? place = some entry) : after.get? place = some entry := by
  rcases grows.entries place with same | ⟨absent, -⟩
  · rw [same, there]
  · rw [there] at absent
    cases absent

/-- New directories take away nothing. -/
theorem Grows.keeps (grows : Grows tree after) : Keeps tree after :=
  ⟨grows.base, fun _ there => grows.get?_of_isSome there, fun _ content there =>
    ⟨content, grows.get?_of_isSome there⟩⟩

/-- A path starts where it did. -/
theorem Keeps.start (keeps : Keeps tree after) (path : Path) : after.start path = tree.start path := by
  rw [FileTree.start, FileTree.start, keeps.base]

/-- A step that leads to a directory still does. -/
theorem Keeps.walkStep_directory (keeps : Keeps tree after) {found : Destination} {name : FileName}
    {directory : Place} (leads : tree.walkStep found name = .directory directory) :
    after.walkStep found name = .directory directory := by
  obtain ⟨above, rfl⟩ := exists_directory_of_walkStep (.inl (by rw [leads]; rfl))
  rcases walkStep_cases above name with ⟨result, step, -⟩ | ⟨short, plain⟩
  · rw [step] at leads ⊢
    exact leads
  · rw [walkStep_name short plain, entryAt] at leads ⊢
    split at leads
    · next there =>
      rw [keeps.directories _ there]
      exact leads
    · cases leads
    · cases leads

/-- Names that lead to a directory still do. -/
theorem Keeps.foldl_directory (keeps : Keeps tree after) {names : List FileName} {begin : Destination}
    {directory : Place} (leads : names.foldl tree.walkStep begin = .directory directory) :
    names.foldl after.walkStep begin = .directory directory := by
  induction names using List.reverseRecOn generalizing directory with
  | nil => exact leads
  | append_singleton front name ih =>
    rw [List.foldl_append, List.foldl_cons, List.foldl_nil] at leads ⊢
    obtain ⟨above, isAbove⟩ := exists_directory_of_walkStep (.inl (by rw [leads]; rfl))
    rw [isAbove] at leads
    rw [ih isAbove]
    exact keeps.walkStep_directory leads

/-- A path names the same place as before. -/
theorem Keeps.names (keeps : Keeps tree after) (isNamed : Names tree path place) :
    Names after path place := by
  obtain ⟨walkable, parts, above, short, plain⟩ := isNamed
  rw [← keeps.start path] at above
  exact ⟨walkable, parts, keeps.foldl_directory above, short, plain⟩

/-- A path that leads to a file still does. -/
theorem Keeps.walk_file (keeps : Keeps tree after) {content : List UInt8}
    (leads : tree.walk path = .file place content) :
    ∃ content', after.walk path = .file place content' := by
  obtain ⟨isNamed, there⟩ := walk_eq_file_iff.mp leads
  obtain ⟨content', there⟩ := keeps.files place content there
  exact ⟨content', walk_eq_file_iff.mpr ⟨keeps.names isNamed, there⟩⟩

/-! ## Making and writing -/

/-- A directory is made where a path leads to nothing. -/
theorem exists_of_makeDirectory {made : FileTree} (ran : tree.makeDirectory path = .ok made) :
    ∃ place, Names tree path place ∧ tree.get? place = none ∧ made = tree.put place .directory := by
  unfold makeDirectory at ran
  split at ran
  case h_3 place leads =>
    obtain ⟨isNamed, absent⟩ := walk_eq_vacant_iff.mp leads
    cases ran
    exact ⟨place, isNamed, absent, rfl⟩
  all_goals cases ran

/-- A directory that is made is all that is new. -/
theorem grows_of_makeDirectory {made : FileTree} (ran : tree.makeDirectory path = .ok made) :
    Grows tree made := by
  obtain ⟨place, -, absent, rfl⟩ := exists_of_makeDirectory ran
  refine ⟨rfl, fun other => ?_⟩
  rw [get?_put]
  split
  · next same => exact .inr ⟨same ▸ absent, rfl⟩
  · exact .inl rfl

/-- The path of a directory that is made leads to a directory. -/
theorem walk_of_makeDirectory {made : FileTree} (ran : tree.makeDirectory path = .ok made) :
    (made.walk path).isDirectory = true := by
  have grows := grows_of_makeDirectory ran
  obtain ⟨place, isNamed, -, rfl⟩ := exists_of_makeDirectory ran
  rw [(grows.keeps.names isNamed).walk, entryAt, get?_put, if_pos rfl]
  rfl

/-- Ensuring a directory makes nothing but directories. -/
theorem ensureDirectory_grows (tree : FileTree) (path : Path) :
    Grows tree (tree.ensureDirectory path).1 := by
  unfold ensureDirectory
  split
  · next ran => exact grows_of_makeDirectory ran
  · exact .refl tree

/-- The path of an ensured directory leads to a directory. -/
theorem ensureDirectory_leads (done : (tree.ensureDirectory path).2 = none) :
    ((tree.ensureDirectory path).1.walk path).isDirectory = true := by
  unfold ensureDirectory at done ⊢
  split at done
  · next ran => exact walk_of_makeDirectory ran
  · dsimp only at done ⊢
    by_contra other
    rw [if_neg other] at done
    cases done

/-- Ensuring the directories on a way makes nothing but directories. -/
theorem ensureDirectories_grows (tree : FileTree) (slashes : Nat) (back : List Codes) :
    Grows tree (tree.ensureDirectories slashes back).1 := by
  induction back with
  | nil => exact ensureDirectory_grows tree _
  | cons name back ih =>
    unfold ensureDirectories
    dsimp only
    split
    · split
      · next made => exact Grows.trans (by rw [made] at ih; exact ih) (ensureDirectory_grows _ _)
      · exact ih
    · next ran => exact grows_of_makeDirectory ran
    · exact .refl tree

/-- Once the directories on the way are made, the path leads to a directory. -/
theorem ensureDirectories_leads {slashes : Nat} {back : List Codes}
    (done : (tree.ensureDirectories slashes back).2 = none) :
    ((tree.ensureDirectories slashes back).1.walk ⟨slashes, back.reverse⟩).isDirectory = true := by
  cases back with
  | nil => exact ensureDirectory_leads done
  | cons name back =>
    unfold ensureDirectories at done ⊢
    dsimp only at done ⊢
    split at done
    · split at done
      · exact ensureDirectory_leads done
      · next unmade =>
        exact (unmade _ (Prod.ext rfl done)).elim
    · next ran => exact walk_of_makeDirectory ran
    · by_contra other
      rw [if_neg other] at done
      cases done

/-- A file is written where a path leads to a file or to nothing. -/
theorem exists_of_write {content : List UInt8} (ran : tree.write path content = .ok after) :
    ∃ place, Names tree path place ∧ tree.get? place ≠ some .directory ∧
      after = tree.put place (.file content) := by
  unfold write at ran
  split at ran
  case h_2 place old leads =>
    obtain ⟨isNamed, there⟩ := walk_eq_file_iff.mp leads
    cases ran
    exact ⟨place, isNamed, by rw [there]; simp, rfl⟩
  case h_3 place leads =>
    obtain ⟨isNamed, absent⟩ := walk_eq_vacant_iff.mp leads
    cases ran
    exact ⟨place, isNamed, by rw [absent]; simp, rfl⟩
  all_goals cases ran

/-- What is written stands at the place that the path names, and nothing else changes. -/
theorem exists_place_of_write {content : List UInt8} (ran : tree.write path content = .ok after) :
    ∃ place, Keeps tree after ∧ after.walk path = .file place content ∧
      ∀ other, other ≠ place → after.get? other = tree.get? other := by
  obtain ⟨place, isNamed, noDirectory, rfl⟩ := exists_of_write ran
  have keeps : Keeps tree (tree.put place (.file content)) := by
    refine ⟨rfl, fun other there => ?_, fun other old there => ?_⟩
    · rw [get?_put]
      split
      · next same => exact absurd (same ▸ there) noDirectory
      · exact there
    · rw [get?_put]
      split
      · exact ⟨content, rfl⟩
      · exact ⟨old, there⟩
  refine ⟨place, keeps, ?_, fun other different => ?_⟩
  · rw [walk_eq_file_iff, get?_put, if_pos rfl]
    exact ⟨keeps.names isNamed, rfl⟩
  · rw [get?_put, if_neg different.symm]

/-! ## Places below a directory -/

/-- Names lead to a file from a directory only, or there are none. -/
theorem foldl_eq_file {names : List FileName} {begin : Destination} {content : List UInt8}
    (leads : names.foldl tree.walkStep begin = .file place content) :
    (∃ directory, begin = .directory directory) ∨ names = [] ∧ begin = .file place content := by
  induction names generalizing begin with
  | nil => exact .inr ⟨rfl, leads⟩
  | cons name names ih =>
    have there : (tree.walkStep begin name).isThere = true := by
      rcases ih leads with ⟨directory, step⟩ | ⟨-, step⟩ <;> rw [step] <;> rfl
    exact .inl (exists_directory_of_walkStep (.inl there))

/-- Names that do not lead upwards lead to a file below the directory where they begin. -/
theorem place_eq_of_foldl {names : List FileName} (noParent : ∀ name ∈ names, name ≠ FileName.parent)
    {directory : Place} {content : List UInt8}
    (leads : names.foldl tree.walkStep (.directory directory) = .file place content) :
    place = directory ++ names := by
  induction names generalizing directory with
  | nil => cases leads
  | cons name names ih =>
    obtain ⟨here, further⟩ := List.forall_mem_cons.mp noParent
    rw [List.foldl_cons] at leads
    rcases walkStep_cases directory name with ⟨result, step, nowhere, parent⟩ | ⟨short, -⟩
    · rw [step] at leads
      rcases foldl_eq_file leads with ⟨next, rfl⟩ | ⟨-, rfl⟩
      · exact absurd (parent rfl) here
      · cases nowhere
    · rw [walkStep_name short here] at leads
      rcases foldl_eq_file leads with ⟨next, isDirectory⟩ | ⟨rfl, isFile⟩
      · rw [isDirectory] at leads
        obtain rfl := ih further leads
        unfold entryAt at isDirectory
        split at isDirectory <;> cases isDirectory
        simp
      · exact (entryAt_eq_file_iff.mp isFile).1

/-- Paths below one directory that do not lead upwards lead to different files. -/
theorem eq_of_walk_eq_file {base : Path} {names names' : List Codes}
    (noParent : ∀ name ∈ names.map FileName.encode, name ≠ FileName.parent)
    (noParent' : ∀ name ∈ names'.map FileName.encode, name ≠ FileName.parent)
    {content content' : List UInt8}
    (leads : tree.walk (base.append ⟨0, names⟩) = .file place content)
    (leads' : tree.walk (base.append ⟨0, names'⟩) = .file place content') :
    names.map FileName.encode = names'.map FileName.encode := by
  rw [walk_of_walkable (walkable_of_walk (.inl (by rw [leads]; rfl))), Path.append_relative,
    List.map_append, List.foldl_append] at leads
  rw [walk_of_walkable (walkable_of_walk (.inl (by rw [leads']; rfl))), Path.append_relative,
    List.map_append, List.foldl_append] at leads'
  rcases foldl_eq_file leads with ⟨directory, above⟩ | ⟨none, above⟩
  · rw [above] at leads
    replace leads' : (names'.map FileName.encode).foldl tree.walkStep (.directory directory) =
        .file place content' := by
      rw [← above]
      exact leads'
    have here := place_eq_of_foldl noParent leads
    exact List.append_cancel_left (here.symm.trans (place_eq_of_foldl noParent' leads'))
  · rcases foldl_eq_file leads' with ⟨directory, above'⟩ | ⟨none', -⟩
    · exact Destination.noConfusion (above.symm.trans above')
    · rw [none, none']

end FileTree

end JasmineConversion
