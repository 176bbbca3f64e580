import JasmineConversion.CommandLine.Arguments
import JasmineConversion.Files.Convert
import JasmineConversion.Settings.File

/-! # Running the command line

A command reads and changes files and reports lines of output and of errors. A command line that
asks for nothing the program can do is refused without a report.
-/

namespace JasmineConversion

open Text

namespace CommandLine

/-- The version of the program. -/
def version : String := "2025.0.1"

/-- How the program is called. -/
def usage : String := "Usage: splurge-exttest-to-jasmine [OPTIONS] COMMAND [ARGS]..."

/-- What a command reports: its exit code, the lines of its output and of its errors, and the
failure that ended it early. -/
structure Report where
  exitCode : Nat := 0
  output : List Text := []
  errors : List Text := []
  escaped : Option Failure := none

/-- The text behind a sequence that sets colors in a terminal, if a text starts with one: an
escape and a bracket, parameters, and a letter. -/
def afterColor? (text : Text) : Option Text := do
  let rest ← after? ['\x1b', '['] text
  match rest.dropWhile fun c => c.isDigit || c == ';' || c == '?' with
  | [] => none
  | last :: rest => if last.isAlpha then some rest else none

/-- A text without the sequences that set colors in a terminal, from the index `skip` on. -/
def dropColors : (skip : Nat) → Text → Text
  | _, [] => []
  | skip + 1, _ :: rest => dropColors skip rest
  | 0, c :: rest =>
    match afterColor? (c :: rest) with
    | some behind => dropColors (rest.length - behind.length) rest
    | none => c :: dropColors 0 rest

/-- A line of output. -/
def echo (text : Text) : Text :=
  dropColors 0 text

/-- A line of output behind a label. -/
def labelled (label text : String) : Text :=
  echo (label ++ text).toList

namespace ConvertRequest

/-- The values of settings that a request gives. A flag that is not given leaves its setting
alone. -/
def values {ω : Type} (request : ConvertRequest) : SettingValues ω :=
  let value (key : SettingKey) (option : ValueOption) :=
    (key.name.toList, ((request.arguments.value? option).map SettingValue.ofText).getD .null)
  let flag (key : SettingKey) (flag : Flag) :=
    (key.name.toList, if request.arguments.has flag then SettingValue.boolean true else .null)
  [value .inputMask .inputMask, value .outputMask .outputMask, value .indentUnit .indent,
    value .logLevel .logLevel, flag .dryRun .dryRun, flag .failFast .failFast]

/-- The rank below which log records are not shown. -/
def threshold (request : ConvertRequest) (settings : Settings) : Nat :=
  if request.arguments.has .debug then LogLevel.debug.rank
  else (Settings.logRank settings.logLevel).toOption.getD LogLevel.info.rank

end ConvertRequest

/-- The lines of output for a conversion that did not fail. -/
def outputLines (toOutput dryRun : Bool) (outcome : RunOutcome) : List Text :=
  let generated := outcome.metadata.generated.getD []
  if toOutput then generated.map fun entry => echo entry.2
  else if dryRun then
    generated.flatMap fun entry =>
      [labelled "== JASMINE: " ((Path.display entry.1).shown ++ " =="), echo entry.2]
  else
    (outcome.data.getD []).map fun path => labelled "Converted: " ((Path.display path).shown)

/-- The report on the outcome of a conversion. -/
def reportOutcome (toOutput dryRun : Bool) (outcome : RunOutcome) : Report :=
  match outcome.status, outcome.error with
  | .error, error =>
    let reason := (error.map Failure.message).getD Outcome.unknownError
    let suggestions := outcome.metadata.file.suggestions.getD []
    { exitCode := 1
      errors := labelled "Error: " reason :: suggestions.map (labelled "  Suggestion: ") }
  | .warning, _ =>
    { exitCode := 1
      output := outputLines toOutput dryRun outcome
      errors := outcome.warnings.map (labelled "Error: ") }
  | .success, _ => { output := outputLines toOutput dryRun outcome }

/-- Whether a request asks for code on the output: it names no place for it and no directory. -/
def asksOutput (tree : FileTree) (request : ConvertRequest) : Except FileError Bool :=
  match request.output with
  | some _ => .ok false
  | none => return !(← tree.look (Path.parse (.ofText request.input))).isDirectory

/-- Converts what a request names with settings. -/
def convertWith (request : ConvertRequest) (settings : Settings) : FileSession Report := do
  let warnings := settings.warnings.map (labelled "Warning: ")
  match asksOutput (← get).files request with
  | .error error => return { exitCode := 1, errors := warnings, escaped := some (.file error) }
  | .ok toOutput => do
    modify fun workspace => { workspace with log :=
      [⟨.commandLine, .debug, "Converting " ++ str request.input ++ " with " ++ settings.describe⟩] }
    let outcome ← FileSession.convertPath (.ofText request.input) (request.output.map .ofText) settings
    let shown := (← get).log.filter fun entry => request.threshold settings ≤ entry.level.rank
    let before := warnings ++ shown.map (·.line.toList)
    match outcome with
    | .error failure => return { exitCode := 1, errors := before, escaped := some failure }
    | .ok outcome =>
      let report := reportOutcome toOutput settings.dryRun outcome
      return { report with errors := before ++ report.errors }

/-- Converts what a request names. -/
def convert {ω : Type} (host : Host ω) (request : ConvertRequest) : FileSession Report := do
  let tree := (← get).files
  let file := (request.arguments.value? .settingsFile).map Codes.ofText
  match Settings.resolve host tree file request.values with
  | .error (.settings error) =>
    return { exitCode := 1, errors := [labelled "Error: " error.message] }
  | .error failure => return { exitCode := 1, escaped := some failure }
  | .ok settings => convertWith request settings

/-- Runs a command line. -/
def run {ω : Type} (host : Host ω) (line : List Text) : FileSession Report := do
  match Command.read line with
  | none => return { exitCode := 2 }
  | some .help => return { output := [usage.toList] }
  | some .version => return { output := [("splurge-exttest-to-jasmine " ++ version).toList] }
  | some (.convert request) => convert host request

end CommandLine

end JasmineConversion
