import JasmineConversion.Proofs.Files.Mapping

/-! # When two files get the same new path

Of the name of a file, only the string of the asterisk is taken over into the new one. Files of one
directory whose names differ elsewhere get the same new path. All others get different ones, and these
never lead to the same file.
-/

namespace JasmineConversion

open Text FileTree

/-- A file of a directory and its new path, by masks that settings accept: the string of the asterisk takes the
place of the other asterisk. -/
inductive Renamed (input output inputMask outputMask : Codes) : Path × Path → Prop
  | intro {directories : List Codes} {name stem : Codes}
      (visible : ∀ part ∈ directories ++ [name], isHidden part = false)
      (split : Mask.Splits inputMask name stem) :
      Renamed input output inputMask outputMask
        ((Path.parse input).append ⟨0, directories ++ [name]⟩,
          (Path.parse output).append ⟨0, directories ++ Path.partsOf (Mask.fill outputMask stem)⟩)

/-- The masks give a name that a file can have: it is not empty, and no dot unless all new names begin
with one. -/
def GivesName (inputMask outputMask name : Codes) : Prop :=
  ∀ renamed, Mask.rename? inputMask outputMask name = some renamed →
    renamed ≠ [] ∧ renamed ≠ Path.dot ∨ isHidden outputMask = true

variable {tree : FileTree} {input output inputMask outputMask : Codes} {p q : Path × Path}

/-- A file that is mapped is renamed by what the asterisk stands for in its name. -/
theorem Mapped.renamed (acceptedInput : Mask.Accepted inputMask)
    (acceptedOutput : Mask.Accepted outputMask) (plain : '['.toNat ∉ inputMask)
    (mapped : Mapped tree input output inputMask outputMask p) :
    Renamed input output inputMask outputMask p := by
  obtain @⟨directories, name, renamed, _, _, named, visible, -, -, isNew⟩ := mapped
  obtain ⟨stem, split, rfl⟩ := (Mask.rename?_eq_some_iff acceptedInput plain).mp isNew
  have noSlash : Path.slash ∉ stem := by
    have isName := named name (List.mem_append_right _ List.mem_cons_self)
    obtain ⟨front, back, whole, -, -⟩ := split
    exact fun member => isName.isPart.noSlash (by simp [whole, member])
  have noSlash := Mask.not_mem_fill (Mask.accepted_iff.mp acceptedOutput).2.1 noSlash
  rw [Path.parse_of_not_mem noSlash, Path.append_append]
  refine .intro (fun part member => ?_) split
  rw [← List.map_singleton, ← List.map_append] at member
  obtain ⟨name, isName, rfl⟩ := List.mem_map.mp member
  exact visible name isName

/-- A mask that begins with a dot gives only names that do. -/
theorem isHidden_fill (star : '*'.toNat ∈ outputMask) (hidden : isHidden outputMask = true)
    (stem : Codes) : isHidden (Mask.fill outputMask stem) = true := by
  unfold isHidden at hidden ⊢
  rw [beq_iff_eq] at hidden ⊢
  have split := (Mask.lead_star_tail star).2
  rw [Mask.fill_eq star]
  cases isLead : Mask.lead outputMask with
  | nil =>
    rw [split, isLead] at hidden
    exact absurd (Option.some.inj hidden) (by decide)
  | cons c more =>
    rw [split, isLead] at hidden
    exact hidden

/-- A new name that gives no part is a dot, and then all new names are hidden. -/
theorem fill_eq_dot {stem : Codes} (star : '*'.toNat ∈ outputMask)
    (isName : Mask.fill outputMask stem ≠ [] ∧ Mask.fill outputMask stem ≠ Path.dot ∨
      isHidden outputMask = true)
    (unnamed : Mask.fill outputMask stem = [] ∨ Mask.fill outputMask stem = Path.dot) :
    isHidden outputMask = true ∧ Mask.fill outputMask stem = Path.dot := by
  have hidden := isName.resolve_left fun named => unnamed.elim named.1 named.2
  refine ⟨hidden, unnamed.resolve_left fun empty => ?_⟩
  have starts := isHidden_fill star hidden stem
  rw [empty] at starts
  cases starts

/-- New paths that are the same have the same directories and the same string of the asterisk. -/
theorem eq_of_append_partsOf {directories directories' : List Codes} {stem stem' : Codes}
    (star : '*'.toNat ∈ outputMask) (visible : ∀ part ∈ directories, isHidden part = false)
    (visible' : ∀ part ∈ directories', isHidden part = false)
    (isName : Mask.fill outputMask stem ≠ [] ∧ Mask.fill outputMask stem ≠ Path.dot ∨
      isHidden outputMask = true)
    (isName' : Mask.fill outputMask stem' ≠ [] ∧ Mask.fill outputMask stem' ≠ Path.dot ∨
      isHidden outputMask = true)
    (same : directories ++ Path.partsOf (Mask.fill outputMask stem) =
      directories' ++ Path.partsOf (Mask.fill outputMask stem')) :
    directories = directories' ∧ stem = stem' := by
  -- A new name without a part would have to be the last directory of the other path. Those are not
  -- hidden, but the other new name is.
  have apart {visibles hiddens : List Codes} {stem : Codes}
      (shown : ∀ part ∈ visibles, isHidden part = false) (hidden : isHidden outputMask = true)
      (same : visibles = hiddens ++ [Mask.fill outputMask stem]) : False := by
    have member := same ▸ List.mem_append_right hiddens List.mem_cons_self
    exact Bool.false_ne_true ((shown _ member).symm.trans (isHidden_fill star hidden stem))
  unfold Path.partsOf at same
  split at same <;> split at same
  · next unnamed unnamed' =>
    rw [List.append_nil, List.append_nil] at same
    refine ⟨same, Mask.fill_injective star ?_⟩
    rw [(fill_eq_dot star isName unnamed).2, (fill_eq_dot star isName' unnamed').2]
  · next unnamed _ =>
    rw [List.append_nil] at same
    exact (apart visible (fill_eq_dot star isName unnamed).1 same).elim
  · next unnamed' =>
    rw [List.append_nil] at same
    exact (apart visible' (fill_eq_dot star isName' unnamed').1 same.symm).elim
  · obtain ⟨sameDirectories, sameName⟩ := List.append_inj' same rfl
    exact ⟨sameDirectories, Mask.fill_injective star (List.cons.inj sameName).1⟩

/-- Two files of a directory get the same new path if and only if they lie in the same directory and the
asterisk stands for the same text in their names. So files get different new paths if nothing but the
asterisk stands for more than one text. Files on different new paths are different. -/
theorem new_paths_eq_iff (wellFormed : tree.WellFormed) (acceptedInput : Mask.Accepted inputMask)
    (acceptedOutput : Mask.Accepted outputMask) (plain : '['.toNat ∉ inputMask) {paths : List (Path × Path)}
    (mapped : outputPaths tree input output inputMask outputMask = .ok paths)
    (first : p ∈ paths) (second : q ∈ paths) :
    (GivesName inputMask outputMask p.1.name → GivesName inputMask outputMask q.1.name →
      (p.2 = q.2 ↔ p.1.parent = q.1.parent ∧
        ∃ stem, Mask.Splits inputMask p.1.name stem ∧ Mask.Splits inputMask q.1.name stem) ∧
      ('?'.toNat ∉ inputMask → p.2 = q.2 → p = q)) ∧
    ∀ after : FileTree, ∀ place content content', after.walk p.2 = .file place content →
      after.walk q.2 = .file place content' → p.2 = q.2 := by
  have isMapped := mapped_of_mem wellFormed mapped first
  have isMapped' := mapped_of_mem wellFormed mapped second
  have noSlash : Path.slash ∉ outputMask := (Mask.accepted_iff.mp acceptedOutput).2.1
  refine ⟨fun isName isName' => ?_, fun after place content content' =>
    isMapped.eq_of_walk noSlash isMapped'⟩
  obtain @⟨directories, name, stem, visible, split⟩ :=
    isMapped.renamed acceptedInput acceptedOutput plain
  obtain @⟨directories', name', stem', visible', split'⟩ :=
    isMapped'.renamed acceptedInput acceptedOutput plain
  dsimp only at isName isName' ⊢
  rw [Path.name_append] at isName isName' ⊢
  rw [Path.name_append, Path.parent_append, Path.parent_append]
  have star := acceptedOutput.star_mem
  have agree (same : (Path.parse output).append
        ⟨0, directories ++ Path.partsOf (Mask.fill outputMask stem)⟩ =
      (Path.parse output).append ⟨0, directories' ++ Path.partsOf (Mask.fill outputMask stem')⟩) :
      directories = directories' ∧ stem = stem' := by
    refine eq_of_append_partsOf star (fun part member => visible part (List.mem_append_left _ member))
      (fun part member => visible' part (List.mem_append_left _ member)) (isName _ ?_) (isName' _ ?_)
      (Path.append_injective _ same)
    · exact (Mask.rename?_eq_some_iff acceptedInput plain).mpr ⟨stem, split, rfl⟩
    · exact (Mask.rename?_eq_some_iff acceptedInput plain).mpr ⟨stem', split', rfl⟩
  refine ⟨⟨fun same => ?_, ?_⟩, fun noMark same => ?_⟩
  · obtain ⟨rfl, rfl⟩ := agree same
    exact ⟨rfl, stem, split, split'⟩
  · rintro ⟨sameDirectory, found, isStem, isStem'⟩
    rw [Path.append_injective _ sameDirectory, split.unique isStem acceptedInput plain,
      split'.unique isStem' acceptedInput plain]
  · obtain ⟨rfl, rfl⟩ := agree same
    rw [split.eq_of_plain acceptedInput plain noMark, split'.eq_of_plain acceptedInput plain noMark]

/-- Two test files of the same name, one of them in a directory below. -/
def nestedTests : FileTree :=
  .ofNames [(["d"], .directory), (["d", "aTest.js"], .file []), (["d", "sub"], .directory),
    (["d", "sub", "aTest.js"], .file [])]

/-- Two tests in different directories get different paths. -/
theorem nestedTests_get_different_paths :
    ∃ paths, outputPaths nestedTests (.ofString "d") (.ofString "o") (.ofString "*Test.js")
        (.ofString "*Spec.js") = .ok paths ∧
      ∃ p ∈ paths, ∃ q ∈ paths, p.1 ≠ q.1 ∧
        GivesName (.ofString "*Test.js") (.ofString "*Spec.js") p.1.name ∧
        GivesName (.ofString "*Test.js") (.ofString "*Spec.js") q.1.name ∧ p.2 ≠ q.2 := by
  have mapped : outputPaths nestedTests (.ofString "d") (.ofString "o") (.ofString "*Test.js")
      (.ofString "*Spec.js") =
        .ok [(Path.parse (.ofString "d/aTest.js"), Path.parse (.ofString "o/aSpec.js")),
          (Path.parse (.ofString "d/sub/aTest.js"), Path.parse (.ofString "o/sub/aSpec.js"))] :=
    outputPaths_eq_ok (by rfl) (by decide +kernel) (by decide +kernel)
  have isName : GivesName (.ofString "*Test.js") (.ofString "*Spec.js") (.ofString "aTest.js") := by
    intro renamed found
    obtain rfl := Option.some.inj ((by decide +kernel : Mask.rename? (.ofString "*Test.js")
      (.ofString "*Spec.js") (.ofString "aTest.js") = some (.ofString "aSpec.js")).symm.trans found)
    decide
  refine ⟨_, mapped, _, List.mem_cons_self, _, List.mem_cons_of_mem _ List.mem_cons_self,
    by decide, isName, isName, fun same => ?_⟩
  have both := new_paths_eq_iff (by decide +kernel) (by decide +kernel) (by decide +kernel)
    (by decide +kernel) mapped List.mem_cons_self (List.mem_cons_of_mem _ List.mem_cons_self)
  exact absurd ((both.1 isName isName).2 (by decide +kernel) same) (by decide)

/-- Two different files get the same new path. -/
def Collide (tree : FileTree) (input output inputMask outputMask : Codes) : Prop :=
  Mask.Accepted inputMask ∧ Mask.Accepted outputMask ∧
    ∃ paths, outputPaths tree input output inputMask outputMask = .ok paths ∧
      ∃ p ∈ paths, ∃ q ∈ paths, p.1 ≠ q.1 ∧ p.2 = q.2

/-- Files collide if the mapping has two sources with one new path. -/
theorem collide_of_any (acceptedInput : Mask.Accepted inputMask)
    (acceptedOutput : Mask.Accepted outputMask)
    (found : (outputPaths tree input output inputMask outputMask).toOption.any
      (fun paths => paths.any fun p => paths.any fun q => p.1 != q.1 && p.2 == q.2) = true) :
    Collide tree input output inputMask outputMask := by
  obtain ⟨paths, mapped, found⟩ := exists_eq_ok_of_any found
  obtain ⟨p, first, found⟩ := List.any_eq_true.mp found
  obtain ⟨q, second, found⟩ := List.any_eq_true.mp found
  rw [Bool.and_eq_true, bne_iff_ne, beq_iff_eq] at found
  exact ⟨acceptedInput, acceptedOutput, paths, mapped, p, first, q, second, found⟩

/-- Files that differ where a question mark stands, where brackets stand, or in a directory. -/
def similarFiles : FileTree :=
  .ofNames [(["d"], .directory), (["d", "a1.js"], .file []), (["d", "a2.js"], .file []),
    (["e"], .directory), (["e", "axyz1.js"], .file []), (["e", "bpqr1.js"], .file []),
    (["f"], .directory), (["f", "sub"], .directory), (["f", "sub", "Test.js"], .file []),
    (["f", "subTest.js"], .file [])]

/-- Names that differ in what a question mark or a set stands for, or only in a point, collide. -/
theorem similarFiles_collide :
    similarFiles.WellFormed ∧
      Collide similarFiles (.ofString "d") (.ofString "o") (.ofString "*?.js") (.ofString "*.js") ∧
      Collide similarFiles (.ofString "e") (.ofString "o") (.ofString "[ab]*.js") (.ofString "*.js") ∧
      Collide similarFiles (.ofString "f") (.ofString "o") (.ofString "*Test.js") (.ofString "*") := by
  refine ⟨by decide +kernel, ?_, ?_, ?_⟩
  all_goals
    refine collide_of_any (by decide +kernel) (by decide +kernel) ?_
    rw [outputPaths_of_sorted (by rfl) (by decide +kernel)]
    decide +kernel

end JasmineConversion
