import JasmineConversion.Conversion
import JasmineConversion.Files.Failure
import JasmineConversion.Outcome

/-! # Converting files

One file is converted to another, or all files of a directory that a mask selects are converted
into another directory of the same layout. A failed file does not stop the others unless the
settings say so. A dry run writes nothing.
-/

namespace JasmineConversion

open Text

/-- The files that operations work on, and their log. -/
structure Workspace where
  files : FileTree
  log : List LogRecord := []

/-- An operation on files. -/
abbrev FileSession := StateM Workspace

/-- Facts about the conversion of a file. -/
structure FileFacts where
  source : Option Codes := none
  suggestions : Option (List String) := none
  generated : Option Text := none

/-- Facts about a conversion of one or more files: those of a single file that failed, the code
generated for each path, and the reason why each failed path did. -/
structure RunFacts where
  file : FileFacts := {}
  generated : Option (Entries Codes Text) := none
  failures : Option (Entries Codes Text) := none

/-- The outcome of the conversion of a file. -/
abbrev FileOutcome := Outcome Failure Codes FileFacts

/-- The outcome of the conversion of one or more files. -/
abbrev RunOutcome := Outcome Failure (List Codes) RunFacts

namespace FileSession

/-- Adds records to the log. -/
def note (records : List LogRecord) : FileSession Unit :=
  modify fun workspace => { workspace with log := workspace.log ++ records }

/-- A record about files. -/
def entry (level : LogLevel) (message : String) : LogRecord :=
  ⟨.files, level, message⟩

end FileSession

/-- A source path that leads to something. -/
def checkSource (tree : FileTree) (path : Codes) : Except Failure Path :=
  if path.isBlank then .error (.path ⟨.emptySource, path⟩)
  else do
    let found := Path.parse path
    if (← (tree.look found).mapError .file).isThere then return found
    else .error (.path ⟨.missingSource, path⟩)

/-- Whether a name has a character that the name of a written file must not have. -/
def hasInvalidChar (name : Codes) : Bool :=
  PathError.invalidNameChars.any fun c => name.contains c.toNat

/-- A target path that can be written to by its name. -/
def checkTarget (path : Codes) : Except PathError Path :=
  if path.isBlank then .error ⟨.emptyTarget, path⟩
  else
    let found := Path.parse path
    if hasInvalidChar found.name then .error ⟨.invalidTarget, path⟩ else .ok found

/-- Makes the directories on the way to a path. The tree is given with those made before a
failure. -/
def ensureParent (tree : FileTree) (path : Path) : FileTree × Except Failure Unit :=
  match path.parent.hazard? with
  | some hazard => (tree, .error (.hazard hazard))
  | none =>
    match tree.ensureParent path with
    | (made, none) => (made, .ok ())
    | (made, some error) => (made, .error (.path ⟨.parentNotMade error, path.parent.codes⟩))

/-- The paths of a conversion: what is read and what is written, if anything is. -/
def checkPaths (tree : FileTree) (source : Codes) (target : Option Codes) :
    Except Failure (Path × Option Path) := do
  let found ← checkSource tree source
  if (tree.walk found).isDirectory then .error (.path ⟨.directorySource, source⟩)
  else
    match target with
    | none => return (found, none)
    | some target => return (found, some (← (checkTarget target).mapError .path))

/-- Whether a part of a path is hidden. -/
def isHidden (name : Codes) : Bool :=
  name.head? == some '.'.toNat

/-- The path of an entry below a directory and the path that it is converted to, if it is a file that
the input mask selects. -/
def outputPath? (tree : FileTree) (root output : Path) (inputMask outputMask : Codes)
    (names : List Codes) : Except Failure (Option (Path × Path)) := do
  let path := root.append ⟨0, names⟩
  let name := names.getLastD []
  if (← (tree.look path).mapError .file).isFile && Mask.isMatch inputMask name then
    match Mask.rename? inputMask outputMask name with
    | none => .error (.maskMismatch name inputMask)
    | some renamed =>
      return some (path, (output.append ⟨0, names.dropLast⟩).append (Path.parse renamed))
  else return none

/-- The paths that the files of a directory are converted to. Files in hidden directories and
hidden files do not count. -/
def outputPaths (tree : FileTree) (input output inputMask outputMask : Codes) :
    Except Failure (List (Path × Path)) :=
  let root := Path.parse input
  match tree.walk root with
  | .tooLong => .error (.file ⟨.nameTooLong, root.codes⟩)
  | .directory directory =>
    let visible := (tree.namesBelow directory).filter fun names => !names.any isHidden
    visible.filterMapM (outputPath? tree root (Path.parse output) inputMask outputMask)
  | _ => .ok []

namespace FileSession

/-- Writes generated code to a path. -/
def writeCode (target : Path) (code : Text) : FileSession (Except Failure Unit) := do
  let workspace ← get
  let (prepared, made) := ensureParent workspace.files target
  set { workspace with files := prepared }
  match made with
  | .error failure => return .error failure
  | .ok () =>
    match target.hazard? with
    | some hazard => return .error (.hazard hazard)
    | none =>
      match prepared.write target (Encoding.encode code) with
      | .error error => return .error (.file error)
      | .ok written => do
        set { workspace with files := written }
        return .ok ()

/-- The outcome of a failed attempt to write generated code. A path that cannot be handed to the
system and a place that cannot be looked up end the operation. -/
def writeFailure (target : Path) (facts : FileFacts) :
    Failure → FileSession (Except Failure FileOutcome)
  | .hazard hazard => return .error (.hazard hazard)
  | .file error => do
    let remedy := if error.fault = .absent then Remedy.absent else Remedy.nothing
    match remedy.suggestions (← get).files false target.codes with
    | .error error => return .error (.file error)
    | .ok suggestions =>
      return .ok (.failure (.file error) { facts with suggestions := some suggestions })
  | failure => return .ok (.failure failure facts)

/-- Converts a file whose text was read. -/
def convertText (source : Path) (target : Option Path) (settings : Settings) (text : Text) :
    FileSession (Except Failure FileOutcome) := do
  let facts : FileFacts := { source := some source.codes }
  let conversion := Conversion.run settings text
  note conversion.log
  match conversion.outcome with
  | .error error => do
    note [entry .debug ("Conversion of " ++ source.codes.shown ++ " failed: " ++ error.text)]
    return .ok (.failure (.source error) facts)
  | .ok code => do
    let facts := { facts with generated := some code }
    match target, settings.dryRun with
    | none, _ => return .ok (.success source.codes facts)
    | some target, true => return .ok (.success target.codes facts)
    | some target, false => do
      match ← writeCode target code with
      | .error failure => writeFailure target facts failure
      | .ok () => do
        note [entry .info ("Converted " ++ source.codes.shown ++ " -> " ++ target.codes.shown)]
        return .ok (.success target.codes facts)

/-- Converts a file. Without a target nothing is written. Paths that cannot be looked up or written
at all end the operation. -/
def convertFile (source : Codes) (target : Option Codes) (settings : Settings) :
    FileSession (Except Failure FileOutcome) := do
  let tree := (← get).files
  match checkPaths tree source target with
  | .error (.path error) => return .ok (.failure (.path error) {})
  | .error failure => return .error failure
  | .ok (sourcePath, targetPath) =>
    let shownSource := sourcePath.codes
    let content := match tree.walk sourcePath with
      | .file _ content => content
      | _ => []
    match Encoding.read content with
    | .error error =>
      return .ok (.failure (.encoding error)
        { source := some shownSource
          suggestions := (Remedy.undecodable.suggestions tree false shownSource).toOption })
    | .ok text => do
      note [entry .debug ("Read source code: " ++ toString text.length ++ " characters from " ++
        shownSource.shown)]
      convertText sourcePath targetPath settings text

/-- What a conversion of several files has done so far. A failure may have stopped it, or ended the
whole operation. -/
structure Progress where
  converted : List Codes := []
  generated : Entries Codes Text := []
  failures : Entries Codes Text := []
  stopped : Option Failure := none
  ended : Option Failure := none

/-- Converts one of several files, unless the conversion was stopped. -/
def convertNext (settings : Settings) (progress : Progress) (paths : Path × Path) :
    FileSession Progress := do
  if progress.stopped.isSome || progress.ended.isSome then return progress
  else
    let source := paths.1.codes
    match ← convertFile source (some paths.2.codes) settings with
    | .error failure => return { progress with ended := some failure }
    | .ok outcome =>
      match outcome.data, outcome.error with
      | some path, _ =>
        return { progress with
          converted := progress.converted ++ [path]
          generated := Entries.put path (outcome.metadata.generated.getD []) progress.generated }
      | none, none => return progress
      | none, some failure => do
        let message := failure.message
        note [entry .error ("Failed to convert " ++ source.shown ++ ": " ++ message)]
        return { progress with
          failures := Entries.put source message.toList progress.failures
          stopped := if settings.failFast then some failure else none }

/-- The outcome of a conversion of several files. -/
def Progress.outcome (progress : Progress) : RunOutcome :=
  let facts : RunFacts :=
    { generated := some progress.generated, failures := some progress.failures }
  match progress.stopped with
  | some failure => .failure failure facts
  | none =>
    if progress.failures.isEmpty then .success progress.converted facts
    else if progress.converted.isEmpty then .failure (.allFailed progress.failures) facts
    else
      .warning progress.converted
        (progress.failures.map fun failed => failed.1.shown ++ ": " ++ str failed.2) facts

/-- The outcome of the conversion of a file, as that of a conversion of files. -/
def singleOutcome (outcome : FileOutcome) : RunOutcome :=
  match outcome.data, outcome.error with
  | some path, _ =>
    .success [path] { generated := some [(path, outcome.metadata.generated.getD [])] }
  | none, some failure => .failure failure { file := outcome.metadata }
  | none, none => ⟨.error, none, none, [], { file := outcome.metadata }⟩

/-- Converts a file, or all the files of a directory that the input mask selects. A name that the
mask selects but cannot be renamed ends the operation, and so does a path that cannot be looked up
or written at all. -/
def convertPath (input : Codes) (output : Option Codes) (settings : Settings) :
    FileSession (Except Failure RunOutcome) := do
  let tree := (← get).files
  match checkSource tree input with
  | .error (.path error) => return .ok (.failure (.path error) {})
  | .error failure => return .error failure
  | .ok source =>
    if !(tree.walk source).isDirectory then
      return (← convertFile source.codes output settings).map singleOutcome
    else
      match output with
      | none => return .ok (.failure (.path ⟨.missingOutput, source.codes⟩) {})
      | some output =>
        match outputPaths tree source.codes output settings.inputMask settings.outputMask with
        | .error failure => return .error failure
        | .ok paths => do
          note [entry .info ("Found " ++ toString paths.length ++ " file(s) matching '" ++
            settings.inputMask.shown ++ "' in " ++ source.codes.shown)]
          let progress ← paths.foldlM (convertNext settings) {}
          match progress.ended with
          | some failure => return .error failure
          | none => return .ok progress.outcome

end FileSession

end JasmineConversion
