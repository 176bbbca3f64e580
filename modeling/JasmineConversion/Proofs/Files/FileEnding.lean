import JasmineConversion.Proofs.Files.Writing

/-! # When the conversion of a file has no outcome

The conversion of a file reports its failures in its outcome. It has no outcome in two cases only: the
path of the source is too long to be looked up, or the path of the target cannot be handed to the system
when code is to be written.
-/

namespace JasmineConversion

open Text FileTree FileSession

variable {settings : Settings} {tree : FileTree}

/-- A path cannot be handed to the system to be written to, and nothing on the way to it is refused
before that. -/
def Unwritable (tree : FileTree) (path : Path) (hazard : Hazard) : Prop :=
  path.writeHazard? = some hazard ∧ ∀ error, (ensureParent tree path).2 ≠ .error (.path error)

/-- The conversion of a file ends without an outcome. -/
inductive FileEnds (settings : Settings) (tree : FileTree) (source : Codes) (target : Option Codes) :
    Failure → Prop
  | unseen (shown : source.isBlank = false) (tooLong : tree.walk (Path.parse source) = .tooLong) :
      FileEnds settings tree source target (.file ⟨.nameTooLong, (Path.parse source).codes⟩)
  | unwritable {code : Text} {output : Codes} {path : Path} {hazard : Hazard} (shown : source.isBlank = false)
      (generates : Generates settings tree (Path.parse source) code) (wet : settings.dryRun = false)
      (given : target = some output) (accepted : checkTarget output = .ok path)
      (unwritable : Unwritable tree path hazard) :
      FileEnds settings tree source target (.hazard hazard)

namespace FileSession

end FileSession

end JasmineConversion
