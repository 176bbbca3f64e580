import JasmineConversion.Proofs.Files.Account
import JasmineConversion.Proofs.Files.FileEnding
import JasmineConversion.Proofs.Settings.Validation

/-! # When a conversion of files has no outcome

A conversion of files reports its failures in its outcome, unless that of one of the files has none. The
only other cases are in the mapping of a directory: an entry has a path that is too long to be looked up,
or a name that the input mask selects is too short for it, so that no new name can be made.
-/

namespace JasmineConversion

open Text FileTree FileSession

variable {settings : Settings} {tree : FileTree}

/-! ## The mapping of a directory -/

/-- A file of a directory cannot be mapped to a path. -/
inductive MapEnds (tree : FileTree) (root : Path) (settings : Settings) (names : List Codes) :
    Failure → Prop
  | unseen (tooLong : tree.walk (root.append ⟨0, names⟩) = .tooLong) :
      MapEnds tree root settings names (.file ⟨.nameTooLong, (root.append ⟨0, names⟩).codes⟩)
  | unfit (isFile : (tree.walk (root.append ⟨0, names⟩)).isFile = true)
      (selected : Mask.isMatch settings.inputMask (names.getLastD []) = true)
      (unnamed : Mask.rename? settings.inputMask settings.outputMask (names.getLastD []) = none) :
      MapEnds tree root settings names
        (.maskMismatch (names.getLastD []) settings.inputMask)

/-- The names below a directory that are not hidden. -/
def visibleBelow (tree : FileTree) (directory : Place) : List (List Codes) :=
  (tree.namesBelow directory).filter fun names => !names.any isHidden

/-- The files of a directory cannot be mapped, because one of them cannot. -/
def MappingEnds (tree : FileTree) (root : Path) (settings : Settings) (failure : Failure) : Prop :=
  ∃ directory front names back, tree.walk root = .directory directory ∧
    visibleBelow tree directory = front ++ names :: back ∧
    (∀ earlier ∈ front, ∀ other, ¬ MapEnds tree root settings earlier other) ∧
    MapEnds tree root settings names failure

/-- The conversion of a path ends without an outcome. -/
inductive PathEnds (settings : Settings) (workspace : Workspace) (input : Codes) :
    Option Codes → Failure → Prop
  | unseen {output : Option Codes} (shown : input.isBlank = false)
      (tooLong : workspace.files.walk (Path.parse input) = .tooLong) :
      PathEnds settings workspace input output (.file ⟨.nameTooLong, (Path.parse input).codes⟩)
  | single {output : Option Codes} {failure : Failure} (shown : input.isBlank = false)
      (isFile : (workspace.files.walk (Path.parse input)).isFile = true)
      (ends : FileEnds settings workspace.files (Path.parse input).codes output failure) :
      PathEnds settings workspace input output failure
  | unmapped {output : Codes} {failure : Failure} (shown : input.isBlank = false)
      (ends : MappingEnds workspace.files (Path.parse input) settings failure) :
      PathEnds settings workspace input (some output) failure
  | directory {output : Codes} {failure : Failure} {paths front back : List (Path × Path)}
      {p : Path × Path} {progress : Progress} {between : Workspace} (shown : input.isBlank = false)
      (isDirectory : (workspace.files.walk (Path.parse input)).isDirectory = true)
      (mapped : outputPaths workspace.files (Path.parse input).codes output settings.inputMask
        settings.outputMask = .ok paths) (split : paths = front ++ p :: back)
      (ran : front.foldlM (convertNext settings) {} ⟨workspace.files,
        workspace.log ++ [foundEntry settings (Path.parse input) paths]⟩ = (progress, between))
      (isOpen : progress.Open)
      (ends : FileEnds settings between.files p.1.codes (some p.2.codes) failure) :
      PathEnds settings workspace input (some output) failure

/-- Where a path leads tells in which ways its conversion can end. -/
theorem PathEnds.cases {workspace : Workspace} {input : Codes} {output : Option Codes} {failure : Failure}
    (ends : PathEnds settings workspace input output failure) :
    input.isBlank = false ∧
      (workspace.files.walk (Path.parse input) = .tooLong ∧
          failure = .file ⟨.nameTooLong, (Path.parse input).codes⟩ ∨
        (workspace.files.walk (Path.parse input)).isFile = true ∧
          FileEnds settings workspace.files (Path.parse input).codes output failure ∨
        (workspace.files.walk (Path.parse input)).isDirectory = true ∧ output ≠ none) := by
  cases ends with
  | unseen shown tooLong => exact ⟨shown, .inl ⟨tooLong, rfl⟩⟩
  | single shown isFile ends => exact ⟨shown, .inr (.inl ⟨isFile, ends⟩)⟩
  | unmapped shown ends =>
    obtain ⟨directory, -, -, -, leads, -⟩ := ends
    exact ⟨shown, .inr (.inr ⟨by rw [leads]; rfl, by simp⟩)⟩
  | directory shown isDirectory => exact ⟨shown, .inr (.inr ⟨isDirectory, by simp⟩)⟩

section

variable {workspace : Workspace} {input : Codes} {output : Option Codes}

end

variable {input : Codes} {output : Option Codes}

end JasmineConversion
