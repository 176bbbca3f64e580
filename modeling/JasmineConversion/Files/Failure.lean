import JasmineConversion.Error
import JasmineConversion.Files.Encoding
import JasmineConversion.Files.Mask
import JasmineConversion.Files.Tree
import JasmineConversion.Settings.Validation

/-! # Failures of operations on files -/

namespace JasmineConversion

open Text

namespace FileError

/-- The wording of a refused operation. -/
def message (error : FileError) : String :=
  (match error.fault with
  | .isDirectory => "[Errno 21] Is a directory: "
  | .notDirectory => "[Errno 20] Not a directory: "
  | .alreadyThere => "[Errno 17] File exists: "
  | .absent => "[Errno 2] No such file or directory: "
  | .nameTooLong => "[Errno 36] File name too long: ") ++ shownCodes error.path

end FileError

namespace Hazard

/-- The wording for a string that cannot be handed to the system. -/
def message : Hazard → String
  | halves position codes =>
      "'utf-8' codec can't encode " ++
        (match codes with
        | [code] => "character '\\u" ++ str (hex 4 code) ++ "' in position " ++ toString position
        | codes => "characters in position " ++ toString position ++ "-" ++
            toString (position + codes.length - 1)) ++
        ": surrogates not allowed"
  | nul => "embedded null byte"

end Hazard

/-- Why a path is refused. -/
inductive PathFault where
  | emptySource
  | missingSource
  | directorySource
  | emptyTarget
  | invalidTarget
  | missingOutput
  | parentNotMade (error : FileError)
  deriving DecidableEq

/-- A refused path. -/
structure PathError where
  fault : PathFault
  path : Codes
  deriving DecidableEq

namespace PathError

/-- The characters that the name of a written file must not have. -/
def invalidNameChars : Text :=
  "<>:\"|?*".toList

/-- The wording of an error. -/
def message (error : PathError) : String :=
  match error.fault with
  | .emptySource => "Source path cannot be empty"
  | .missingSource => "Source path does not exist: " ++ error.path.shown
  | .directorySource => "Source path is a directory: " ++ error.path.shown
  | .emptyTarget => "Target path cannot be empty"
  | .invalidTarget => "Target name contains invalid characters: " ++ str invalidNameChars
  | .missingOutput => "An output directory is required when converting a directory"
  | .parentNotMade reason => "Cannot create parent directory: " ++ reason.message

/-- The kind of an error, as reports name it. -/
def kind (error : PathError) : String :=
  match error.fault with
  | .emptySource => "empty_path"
  | .missingSource => "missing"
  | .directorySource => "not_a_file"
  | .emptyTarget => "empty_path"
  | .invalidTarget => "invalid_chars"
  | .missingOutput => "missing"
  | .parentNotMade _ => "parent_creation"

end PathError

/-- Why the settings in a file cannot be had. -/
inductive LoadFault where
  | missing (path : Codes)
  | unreadable
  | notMapping
  | invalid (error : SettingsError)
  deriving DecidableEq

/-- The wording of a fault. -/
def LoadFault.message : LoadFault → String
  | missing path => "Configuration file not found: " ++ path.shown
  | unreadable => "Error loading configuration: the file could not be read"
  | notMapping => "Configuration file must contain a mapping"
  | invalid error => error.message

/-- Why an operation fails. -/
inductive Failure where
  | source (error : SourceError)
  | path (error : PathError)
  | encoding (error : EncodingError)
  | file (error : FileError)
  | settings (error : SettingsError)
  | allFailed (failures : List (Codes × Text))
  | maskMismatch (name mask : Codes)
  | indent (fault : IndentFault)
  | document (mistake : DocumentMistake)
  | hazard (found : Hazard)
  deriving DecidableEq

namespace Failure

/-- The wording of a failure. -/
def message : Failure → String
  | source error => error.text
  | path error => error.message
  | encoding error => error.message
  | file error => error.message
  | settings error => error.message
  | allFailed failures => "All " ++ toString failures.length ++ " file(s) failed to convert"
  | maskMismatch name mask => Mask.mismatchMessage name mask
  | indent fault => fault.message
  | document mistake => mistake.wording
  | hazard found => found.message

end Failure

/-- What can be said to help with a failed operation on a path. -/
inductive Remedy where
  | absent
  | forbidden
  | undecodable
  | nothing

/-- Advice on a failed operation on a path. A path whose parent cannot be looked up has none. -/
def Remedy.suggestions (remedy : Remedy) (tree : FileTree) (windows : Bool) (path : Codes) :
    Except FileError (List String) :=
  let above := (Path.parse path).parent
  match remedy with
  | absent => do
    let found ← tree.look above
    return (if found.isThere then [] else ["Create the parent directory: " ++ above.codes.shown]) ++
      ["Check if the path exists: " ++ path.shown]
  | forbidden =>
    return ["Check permissions for: " ++ above.codes.shown] ++
      if windows then ["Check if the file is open in another program"] else []
  | undecodable => return ["Save the file as UTF-8: " ++ path.shown]
  | nothing => return []

end JasmineConversion
