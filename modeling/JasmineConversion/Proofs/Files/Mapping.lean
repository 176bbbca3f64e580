import Mathlib.Data.List.Nodup
import JasmineConversion.Files.Convert
import JasmineConversion.Proofs.Files.Mask
import JasmineConversion.Proofs.Files.Tree
import JasmineConversion.Proofs.Outcome

/-! # Which path a file of a directory is converted to

The files of a directory that are converted are those that the input mask selects, each once. Their
new paths repeat their directories and take over the string of the asterisk from their names. So two of
them have the same new path if and only if directory and string agree.
-/

namespace JasmineConversion

open Text FileTree

namespace FileTree

variable {tree : FileTree}

/-- What is below a directory goes on behind its place. -/
theorem below?_eq_some_iff {lead place rest : Place} :
    below? lead place = some rest ↔ place = lead ++ rest ∧ rest ≠ [] := by
  induction lead generalizing place with
  | nil =>
    cases place with
    | nil => simp [below?, eq_comm]
    | cons name place =>
      rw [below?, Option.some_inj, List.nil_append]
      exact ⟨fun same => ⟨same, by simp [← same]⟩, fun split => split.1⟩
  | cons first lead ih =>
    cases place with
    | nil => simp [below?]
    | cons name place =>
      rw [below?, List.cons_append, List.cons.injEq]
      split
      · next same => simp [ih, same]
      · next other => simp [Ne.symm other]

/-- The names below a directory are those of the entries below it. -/
theorem mem_namesBelow_iff {directory : Place} {names : List Codes} :
    names ∈ tree.namesBelow directory ↔
      ∃ place, place ≠ [] ∧ names = place.map FileName.decode ∧
        ∃ entry, (directory ++ place, entry) ∈ tree.entries := by
  rw [namesBelow, List.mem_mergeSort, List.mem_filterMap]
  simp only [Option.map_eq_some_iff, below?_eq_some_iff]
  constructor
  · rintro ⟨⟨-, entry⟩, member, place, ⟨rfl, nonempty⟩, rfl⟩
    exact ⟨place, nonempty, rfl, entry, member⟩
  · rintro ⟨place, nonempty, rfl, entry, member⟩
    exact ⟨_, member, place, ⟨rfl, nonempty⟩, rfl⟩

/-- Places are told by the strings for their names. -/
theorem map_decode_injective : Function.Injective (List.map FileName.decode) :=
  List.map_injective_iff.mpr fun _ _ => FileName.decode_inj.mp

/-- No names are listed twice below a directory. -/
theorem WellFormed.nodup_namesBelow (wellFormed : tree.WellFormed) (directory : Place) :
    (tree.namesBelow directory).Nodup := by
  rw [namesBelow, List.nodup_mergeSort]
  have keys : tree.entries.filterMap (fun entry => (below? directory entry.1).map (·.map FileName.decode)) =
      (tree.entries.map Prod.fst).filterMap fun place =>
        (below? directory place).map (·.map FileName.decode) := by
    rw [List.filterMap_map]
    rfl
  rw [keys]
  refine wellFormed.distinct.filterMap fun place place' names below below' => ?_
  obtain ⟨rest, isBelow, rfl⟩ := Option.map_eq_some_iff.mp below
  obtain ⟨rest', isBelow', same⟩ := Option.map_eq_some_iff.mp below'
  rw [(below?_eq_some_iff.mp isBelow).1, (below?_eq_some_iff.mp isBelow').1, map_decode_injective same]

end FileTree

/-- A file of a directory, and the path that it is converted to: one below the output directory, with
the new name in place of the old one. -/
inductive Mapped (tree : FileTree) (input output inputMask outputMask : Codes) : Path × Path → Prop
  | intro {directories : Place} {name : FileName} {renamed : Codes} {place : Place}
      {content : List UInt8}
      (named : ∀ part ∈ directories ++ [name], IsName part)
      (visible : ∀ part ∈ directories ++ [name], isHidden (FileName.decode part) = false)
      (leads : tree.walk ((Path.parse input).append
        ⟨0, directories.map FileName.decode ++ [FileName.decode name]⟩) = .file place content)
      (selected : Mask.isMatch inputMask (FileName.decode name) = true)
      (isNew : Mask.rename? inputMask outputMask (FileName.decode name) = some renamed) :
      Mapped tree input output inputMask outputMask
        ((Path.parse input).append ⟨0, directories.map FileName.decode ++ [FileName.decode name]⟩,
          ((Path.parse output).append ⟨0, directories.map FileName.decode⟩).append (Path.parse renamed))

variable {tree : FileTree} {input output inputMask outputMask : Codes} {paths : List (Path × Path)}
  {p q : Path × Path}

/-- A path is given to what is a file, selected and renamed. -/
theorem outputPath?_eq_some {root target : Path} {names : List Codes}
    (ran : outputPath? tree root target inputMask outputMask names = .ok (some p)) :
    ∃ place content renamed, tree.walk (root.append ⟨0, names⟩) = .file place content ∧
      Mask.isMatch inputMask (names.getLastD []) = true ∧
      Mask.rename? inputMask outputMask (names.getLastD []) = some renamed ∧
      p = (root.append ⟨0, names⟩,
        (target.append ⟨0, names.dropLast⟩).append (Path.parse renamed)) := by
  obtain ⟨found, looked, ran⟩ := exceptBind_eq_ok_iff.mp ran
  rw [mapError_eq_ok_iff] at looked
  split at ran
  · next isSelected =>
    rw [Bool.and_eq_true] at isSelected
    split at ran
    · cases ran
    · next renamed isNew =>
      cases ran
      unfold look at looked
      split at looked
      · cases looked
      · cases looked
        cases leads : tree.walk (root.append ⟨0, names⟩) with
        | file place content => exact ⟨place, content, renamed, rfl, isSelected.2, isNew, rfl⟩
        | _ =>
          rw [leads] at isSelected
          cases isSelected.1
  · cases ran

/-- The paths of a mapping are those given for the entries below the directory, in their order. -/
theorem eq_filterMap_of_outputPaths
    (mapped : outputPaths tree input output inputMask outputMask = .ok paths) :
    paths = [] ∨ ∃ directory, tree.walk (Path.parse input) = .directory directory ∧
      paths = ((tree.namesBelow directory).filter fun names => !names.any isHidden).filterMap
        fun names => (outputPath? tree (Path.parse input) (Path.parse output) inputMask outputMask
          names).toOption.join := by
  unfold outputPaths at mapped
  dsimp only at mapped
  split at mapped
  · cases mapped
  · next directory leads => exact .inr ⟨directory, leads, eq_filterMap_of_filterMapM mapped⟩
  · cases mapped
    exact .inl rfl

/-- The names below a directory before they are put in order. -/
def FileTree.listed (tree : FileTree) (directory : Place) : List (List Codes) :=
  tree.entries.filterMap fun entry => (below? directory entry.1).map (·.map FileName.decode)

/-- Names that stand in order are listed as they stand. -/
theorem namesBelow_of_sorted {directory : Place}
    (sorted : (tree.listed directory).Pairwise fun first second =>
      (!Path.namesBefore second first) = true) : tree.namesBelow directory = tree.listed directory :=
  List.mergeSort_of_pairwise sorted

/-- The mapping of a directory whose entries are in order. -/
theorem outputPaths_of_sorted {directory : Place}
    (leads : tree.walk (Path.parse input) = .directory directory)
    (sorted : (tree.listed directory).Pairwise fun first second =>
      (!Path.namesBefore second first) = true) :
    outputPaths tree input output inputMask outputMask =
      ((tree.listed directory).filter fun names => !names.any isHidden).filterMapM
        (outputPath? tree (Path.parse input) (Path.parse output) inputMask outputMask) := by
  rw [outputPaths, leads]
  dsimp only
  rw [namesBelow_of_sorted sorted]

/-- The mapping of a directory whose entries are in order, if each of them has its path. -/
theorem outputPaths_eq_ok {directory : Place}
    (leads : tree.walk (Path.parse input) = .directory directory)
    (sorted : (tree.listed directory).Pairwise fun first second =>
      (!Path.namesBefore second first) = true)
    (found : (((tree.listed directory).filter fun names => !names.any isHidden).filterMapM
      (outputPath? tree (Path.parse input) (Path.parse output) inputMask outputMask)).toOption =
        some paths) :
    outputPaths tree input output inputMask outputMask = .ok paths := by
  rw [outputPaths_of_sorted leads sorted]
  cases ran : ((tree.listed directory).filter fun names => !names.any isHidden).filterMapM
      (outputPath? tree (Path.parse input) (Path.parse output) inputMask outputMask) with
  | error failure =>
    rw [ran] at found
    cases found
  | ok value =>
    rw [ran] at found
    cases found
    rfl

/-- What is mapped is a file of the directory with its new path. -/
theorem mapped_of_mem (wellFormed : tree.WellFormed)
    (mapped : outputPaths tree input output inputMask outputMask = .ok paths) (member : p ∈ paths) :
    Mapped tree input output inputMask outputMask p := by
  rcases eq_filterMap_of_outputPaths mapped with rfl | ⟨directory, -, rfl⟩
  · cases member
  · obtain ⟨names, isVisible, found⟩ := List.mem_filterMap.mp member
    obtain ⟨isBelow, visible⟩ := List.mem_filter.mp isVisible
    obtain ⟨place, nonempty, rfl, entry, isEntry⟩ := mem_namesBelow_iff.mp isBelow
    obtain ⟨_, content, renamed, leads, selected, isNew, rfl⟩ :=
      outputPath?_eq_some (join_toOption_eq_some_iff.mp found)
    rcases List.eq_nil_or_concat place with rfl | ⟨directories, name, rfl⟩
    · exact absurd rfl nonempty
    · rw [List.concat_eq_append] at *
      rw [List.map_append, List.map_singleton] at leads selected isNew visible ⊢
      rw [List.dropLast_concat]
      rw [List.getLastD_concat] at selected isNew
      refine .intro (fun part isPart => ?_) (fun part isPart => ?_) leads selected isNew
      · exact wellFormed.named _ isEntry part (List.mem_append_right _ isPart)
      · rw [Bool.not_eq_true', List.any_eq_false, ← List.map_singleton, ← List.map_append] at visible
        exact Bool.not_eq_true _ ▸ visible _ (List.mem_map_of_mem isPart)

/-- No file is converted twice. -/
theorem nodup_of_outputPaths (wellFormed : tree.WellFormed)
    (mapped : outputPaths tree input output inputMask outputMask = .ok paths) :
    (paths.map Prod.fst).Nodup := by
  rcases eq_filterMap_of_outputPaths mapped with rfl | ⟨directory, -, rfl⟩
  · exact List.nodup_nil
  · rw [List.map_filterMap]
    refine ((wellFormed.nodup_namesBelow directory).filter _).filterMap ?_
    have source : ∀ names path, path ∈ ((outputPath? tree (Path.parse input) (Path.parse output)
        inputMask outputMask names).toOption.join).map Prod.fst →
        path = (Path.parse input).append ⟨0, names⟩ := by
      intro names path found
      obtain ⟨p, given, rfl⟩ := Option.map_eq_some_iff.mp found
      obtain ⟨_, _, _, -, -, -, rfl⟩ := outputPath?_eq_some (join_toOption_eq_some_iff.mp given)
      rfl
    intro names names' path found found'
    exact Path.append_injective _ ((source names path found).symm.trans (source names' path found'))

/-- Names of files make a path that its string shows. -/
theorem FileTree.proper_decode {place : Place} (named : ∀ part ∈ place, IsName part) :
    Path.Proper ⟨0, place.map FileName.decode⟩ where
  slashes := Nat.zero_le 2
  parts part member := by
    obtain ⟨name, isPart, rfl⟩ := List.mem_map.mp member
    exact (named name isPart).isPart

/-- Names of files can be handed to the system. -/
theorem FileTree.hazard?_decode {place : Place} (named : ∀ part ∈ place, IsName part) :
    Path.hazard? ⟨0, place.map FileName.decode⟩ = none := by
  refine Path.hazard?_eq_none_iff.mpr fun part member => ?_
  obtain ⟨name, isPart, rfl⟩ := List.mem_map.mp member
  exact (named name isPart).hazard?

/-- The paths of a file that is converted can be told by their strings. -/
theorem Mapped.proper (mapped : Mapped tree input output inputMask outputMask p) :
    p.1.Proper ∧ p.2.Proper := by
  obtain @⟨directories, name, -, -, -, named, -, -, -, -⟩ := mapped
  constructor
  · have whole := proper_decode named
    rw [List.map_append, List.map_singleton] at whole
    exact (Path.proper_parse input).append whole
  · refine ((Path.proper_parse output).append (proper_decode fun part member => ?_)).append
      (Path.proper_parse _)
    exact named part (List.mem_append_left _ member)

/-- The path of a file that is converted leads to a file. -/
theorem Mapped.leads_to_file (mapped : Mapped tree input output inputMask outputMask p) :
    ∃ place content, tree.walk p.1 = .file place content := by
  obtain ⟨-, -, leads, -, -⟩ := mapped
  exact ⟨_, _, leads⟩

/-- The name of a file that is converted is selected, and is the one that a program sees. -/
theorem Mapped.selected (mapped : Mapped tree input output inputMask outputMask p) :
    Mask.isMatch inputMask p.1.name = true ∧ ∃ name, p.1.name = FileName.decode name := by
  obtain @⟨-, name, -, -, -, -, -, -, selected, -⟩ := mapped
  rw [Path.name_append]
  exact ⟨selected, name, rfl⟩

/-- A mask around a string can be handed to the system if both can. -/
theorem Mask.hazard?_fill {mask stem : Codes} (clean : FileName.hazard? mask = none)
    (clean' : FileName.hazard? stem = none) : FileName.hazard? (fill mask stem) = none := by
  unfold fill
  split
  · refine FileName.hazard?_append.mpr ⟨FileName.hazard?_append.mpr ⟨?_, clean'⟩, ?_⟩
    · exact FileName.hazard?_of_subset (List.takeWhile_subset _) clean
    · exact FileName.hazard?_of_subset
        (fun _ member => List.dropWhile_subset _ (List.drop_subset _ _ member)) clean
  · exact clean

/-- A new name is the output mask with a stretch of the old name. -/
theorem exists_stem_of_rename? {name : FileName} {renamed : Codes}
    (isNew : Mask.rename? inputMask outputMask (FileName.decode name) = some renamed) :
    ∃ stem, FileName.decode stem ⊆ FileName.decode name ∧
      renamed = Mask.fill outputMask (FileName.decode stem) := by
  unfold Mask.rename? at isNew
  dsimp only at isNew
  split at isNew
  · cases isNew
    have part := Mask.between_isInfix (Mask.lead inputMask).length (Mask.tail inputMask).length
      (FileName.decode name)
    obtain ⟨stem, isStem⟩ := FileName.exists_of_infix part
    exact ⟨stem, isStem ▸ part.subset, by rw [isStem]⟩
  · cases isNew

/-- A mask without slashes gives paths right below the directories of the files. -/
theorem Mapped.exists_parts (noSlash : Path.slash ∉ outputMask)
    (mapped : Mapped tree input output inputMask outputMask p) :
    ∃ (directories : Place) (stem : FileName), (∀ part ∈ directories, IsName part) ∧
      p.2 = (Path.parse output).append ⟨0, directories.map FileName.decode ++
        Path.partsOf (Mask.fill outputMask (FileName.decode stem))⟩ := by
  obtain @⟨directories, name, renamed, _, _, named, -, -, -, isNew⟩ := mapped
  obtain ⟨stem, part, rfl⟩ := exists_stem_of_rename? isNew
  refine ⟨directories, stem, fun part member => named part (List.mem_append_left _ member), ?_⟩
  have isName := named name (List.mem_append_right _ List.mem_cons_self)
  have noSlash := Mask.not_mem_fill noSlash fun member => isName.isPart.noSlash (part member)
  rw [Path.parse_of_not_mem noSlash, Path.append_append]

/-- A path that a file is mapped to can be handed to the system if the output path and the output mask
can. -/
theorem Mapped.hazard? (mapped : Mapped tree input output inputMask outputMask p)
    (clean : FileName.hazard? output = none) (clean' : FileName.hazard? outputMask = none) :
    p.2.hazard? = none := by
  obtain @⟨directories, name, renamed, _, _, named, -, -, -, isNew⟩ := mapped
  obtain ⟨stem, part, rfl⟩ := exists_stem_of_rename? isNew
  have isName := named name (List.mem_append_right _ List.mem_cons_self)
  have renamedClean := Mask.hazard?_fill clean' (FileName.hazard?_of_subset part isName.hazard?)
  refine Path.hazard?_append (Path.hazard?_append (Path.hazard?_parse clean)
    (hazard?_decode fun part member => ?_)) (Path.hazard?_parse renamedClean)
  exact named part (List.mem_append_left _ member)

/-! ## New paths and the files that they lead to -/

namespace Mask

variable {mask : Codes}

/-- New names that stand for the same bytes are the same. -/
theorem fill_eq_of_encode_eq {stem stem' : FileName}
    (same : FileName.encode (fill mask (FileName.decode stem)) =
      FileName.encode (fill mask (FileName.decode stem'))) :
    fill mask (FileName.decode stem) = fill mask (FileName.decode stem') := by
  unfold fill at same ⊢
  split
  · next star =>
    rw [if_pos star, if_pos star] at same
    simp only [FileName.encode_append, FileName.encode_decode] at same
    rw [List.append_cancel_left (List.append_cancel_right same)]
  · rfl

/-- If the mask leaves no more than a dot of a name, its ends are empty, or one of them is a dot. Then it
puts no more than this dot around the bytes of other names. -/
theorem exists_decode_of_unnamed {stem : Codes} (star : '*'.toNat ∈ mask)
    (unnamed : fill mask stem = [] ∨ fill mask stem = Path.dot) (other : FileName) :
    ∃ bytes, fill mask (FileName.decode other) = FileName.decode bytes := by
  have isFirst : (UInt8.ofNat '.'.toNat).IsUTF8FirstByte := by decide
  have isDot : FileName.decode [UInt8.ofNat '.'.toNat] = Path.dot := by decide
  have ends : (lead mask = [] ∧ tail mask = []) ∨ (lead mask = Path.dot ∧ tail mask = []) ∨
      (lead mask = [] ∧ tail mask = Path.dot) := by
    rw [fill_eq star] at unnamed
    rcases unnamed with empty | single
    · simp only [List.append_eq_nil_iff] at empty
      exact .inl ⟨empty.1.1, empty.2⟩
    · simp only [Path.dot, List.append_eq_singleton_iff, List.append_eq_nil_iff] at single
      rcases single with ⟨⟨isLead, -⟩, isTail⟩ | ⟨⟨isLead, -⟩ | ⟨isLead, -⟩, isTail⟩
      · exact .inr (.inr ⟨isLead, isTail⟩)
      · exact .inl ⟨isLead, isTail⟩
      · exact .inr (.inl ⟨isLead, isTail⟩)
  rw [fill_eq star]
  rcases ends with ⟨isLead, isTail⟩ | ⟨isLead, isTail⟩ | ⟨isLead, isTail⟩
  · exact ⟨other, by rw [isLead, isTail, List.nil_append, List.append_nil]⟩
  · refine ⟨String.utf8EncodeChar '.' ++ other, ?_⟩
    rw [isLead, isTail, List.append_nil, FileName.decode_char]
    rfl
  · refine ⟨other ++ [UInt8.ofNat '.'.toNat], ?_⟩
    rw [isLead, isTail, List.nil_append, FileName.decode_append isFirst, isDot]

/-- Places whose names are the same bytes have the same strings, also where a mask gave the last name. -/
theorem append_partsOf_eq {directories directories' : Place} {stem stem' : FileName}
    (same : directories ++ (Path.partsOf (fill mask (FileName.decode stem))).map FileName.encode =
      directories' ++ (Path.partsOf (fill mask (FileName.decode stem'))).map FileName.encode) :
    directories.map FileName.decode ++ Path.partsOf (fill mask (FileName.decode stem)) =
      directories'.map FileName.decode ++ Path.partsOf (fill mask (FileName.decode stem')) := by
  -- If only one of the new names is a part, it is the last directory of the other path.
  have apart {visible hidden : Place} {stem stem' : FileName}
      (unnamed : fill mask (FileName.decode stem) = [] ∨ fill mask (FileName.decode stem) = Path.dot)
      (isPart : ¬ (fill mask (FileName.decode stem') = [] ∨
        fill mask (FileName.decode stem') = Path.dot))
      (same : visible = hidden ++ [FileName.encode (fill mask (FileName.decode stem'))]) :
      visible.map FileName.decode =
        hidden.map FileName.decode ++ [fill mask (FileName.decode stem')] := by
    have star : '*'.toNat ∈ mask := by
      by_contra absent
      have fixed (stem : Codes) : fill mask stem = mask := by
        rw [fill, if_neg (by rwa [List.contains_iff_mem])]
      rw [fixed] at unnamed isPart
      exact isPart unnamed
    obtain ⟨bytes, isName⟩ := exists_decode_of_unnamed star unnamed stem'
    rw [same, isName, FileName.encode_decode, List.map_append, List.map_singleton]
  unfold Path.partsOf at same ⊢
  split at same <;> split at same
  · next unnamed unnamed' =>
    obtain rfl : directories = directories' := by simpa using same
    rw [if_pos unnamed, if_pos unnamed']
  · next unnamed isPart =>
    rw [if_pos unnamed, if_neg isPart, List.append_nil]
    exact apart unnamed isPart (by simpa using same)
  · next isPart unnamed =>
    rw [if_neg isPart, if_pos unnamed, List.append_nil]
    exact (apart unnamed isPart (by simpa using same.symm)).symm
  · next isPart isPart' =>
    obtain ⟨rfl, sameName⟩ := List.append_inj' same rfl
    rw [if_neg isPart, if_neg isPart', fill_eq_of_encode_eq (List.cons.inj sameName).1]

end Mask

/-- New paths that are not the same never lead to the same file. -/
theorem Mapped.eq_of_walk (noSlash : Path.slash ∉ outputMask)
    (mapped : Mapped tree input output inputMask outputMask p)
    (mapped' : Mapped tree input output inputMask outputMask q) {after : FileTree} {place : Place}
    {content content' : List UInt8} (leads : after.walk p.2 = .file place content)
    (leads' : after.walk q.2 = .file place content') : p.2 = q.2 := by
  have noParent {directories : Place} {renamed : Codes} {content : List UInt8}
      (named : ∀ part ∈ directories, IsName part)
      (leads : after.walk ((Path.parse output).append
        ⟨0, directories.map FileName.decode ++ Path.partsOf renamed⟩) = .file place content) :
      ∀ part ∈ (directories.map FileName.decode ++ Path.partsOf renamed).map FileName.encode,
        part ≠ FileName.parent := by
    rw [List.map_append, FileName.map_encode_decode]
    intro part member
    rcases List.mem_append.mp member with member | member
    · exact (named part member).noParent
    · unfold Path.partsOf at member leads
      split at member
      · cases member
      · next isPart =>
        obtain rfl := List.mem_singleton.mp member
        rw [if_neg isPart] at leads
        exact ne_parent_of_walk_eq_file leads
  obtain ⟨directories, stem, named, same⟩ := mapped.exists_parts noSlash
  obtain ⟨directories', stem', named', same'⟩ := mapped'.exists_parts noSlash
  rw [same] at leads ⊢
  rw [same'] at leads' ⊢
  have bytes := eq_of_walk_eq_file (noParent named leads) (noParent named' leads') leads leads'
  simp only [List.map_append, FileName.map_encode_decode] at bytes
  rw [Mask.append_partsOf_eq bytes]

end JasmineConversion
