import JasmineConversion.Files.Failure
import JasmineConversion.Outcome

/-! # Settings from files

A settings file is a document that maps the names of settings to values. Further values may be given on
top of it. The settings of the file have to be valid by themselves.
-/

namespace JasmineConversion

open Text

/-- The outcome of loading a settings file, with its path. -/
abbrev LoadOutcome := Outcome LoadFault Settings Codes

namespace Settings

variable {ω : Type}

/-- Whether the end of a path says that it names a directory. -/
def namesDirectory (path : Codes) : Bool :=
  [Path.slash].isSuffixOf path || ([Path.slash] ++ Path.dot).isSuffixOf path

/-- The bytes of the settings file at a path. -/
def fileContent (tree : FileTree) (path : Codes) : Except LoadFault (List UInt8) :=
  if path.isEmpty then .error (.missing path)
  else if (FileName.encode path).length > FileTree.pathLimit then .error .unreadable
  else
    match tree.walk (Path.parse path) with
    | .file _ content => if namesDirectory path then .error .unreadable else .ok content
    | .directory _ => .error .unreadable
    | .blocked => .error .unreadable
    | .tooLong => .error .unreadable
    | .vacant _ => .error (.missing path)
    | .missing => .error (.missing path)

/-- The settings that a document gives. One without a value gives the defaults. -/
def ofDocument (coercions : Coercions ω) : Document ω → Except LoadFault Settings
  | .other => .error .notMapping
  | .nothing => (ofValues coercions []).mapError .invalid
  | .settings values => (ofValues coercions values).mapError .invalid

/-- The settings that the bytes of a settings file give. Their encoding is no matter of settings, and
neither is a mistake that the reader of documents has no report for. -/
def ofContent (host : Host ω) (content : List UInt8) : Except Failure (Except LoadFault Settings) :=
  match host.document content with
  | .error .malformed => .ok (.error .unreadable)
  | .error (.encoding error) => .error (.encoding error)
  | .error (.mistaken mistake) => .error (.document mistake)
  | .ok document => .ok (ofDocument host.toCoercions document)

/-- Loads a settings file. A path that cannot be handed to the system is no matter of settings. -/
def load (host : Host ω) (tree : FileTree) (path : Codes) : Except Failure LoadOutcome :=
  match FileName.hazard? path with
  | some hazard => .error (.hazard hazard)
  | none =>
    match fileContent tree path with
    | .error fault => .ok (.failure fault path)
    | .ok content => do
      match ← ofContent host content with
      | .error fault => return .failure fault path
      | .ok settings => return .success settings path

/-- The settings of a file, or the defaults without one. -/
def base (host : Host ω) (tree : FileTree) : (file : Option Codes) → Except Failure Settings
  | none => .ok {}
  | some path => do
    let outcome ← load host tree path
    match outcome.data, outcome.error with
    | some settings, _ => return settings
    | none, some fault => .error (.settings (.unloadable fault.message))
    | none, none => return {}

/-- The value of an indent as `parseIndent` understands it. A string that is no text is taken as it
is. -/
def indentValue (host : Host ω) : SettingValue ω → Except IndentFault (SettingValue ω)
  | .string codes =>
    match Content.ofCodes codes with
    | .text text => (parseIndent host.room text).map .ofText
    | .codes _ => .ok (.string codes)
  | .boolean _ => .error (.notText "bool")
  | .integer _ => .error (.notText "int")
  | .other value => host.indent value
  | .null => .ok .null

/-- A given value. An indent is given as `parseIndent` understands it. -/
def givenValue (host : Host ω) (entry : Text × SettingValue ω) :
    Except Failure (Text × SettingValue ω) :=
  if entry.1 = SettingKey.indentUnit.name.toList then
    ((indentValue host entry.2).map (entry.1, ·)).mapError .indent
  else .ok entry

/-- The settings of a file, or the defaults without one, with given values in place of theirs.
Absent values are not given. -/
def resolve (host : Host ω) (tree : FileTree) (file : Option Codes) (values : SettingValues ω) :
    Except Failure Settings := do
  let settings ← base host tree file
  let given ← (values.filter fun entry => !entry.2.isNull).mapM (givenValue host)
  (ofValues host.toCoercions (given ++ settings.toValues)).mapError .settings

end Settings

end JasmineConversion
