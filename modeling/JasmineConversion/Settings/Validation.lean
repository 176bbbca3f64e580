import JasmineConversion.Log
import JasmineConversion.Settings.Host

/-! # Validating settings

Values become settings if each of them is of the right kind, or can be taken for one, and keeps
the rule of its setting. All problems are reported together, in the order of the settings. The
two masks are compared only when there are no other problems.
-/

namespace JasmineConversion

open Text

/-- Why a value is refused. Where a message shows the value, it is given as shown. -/
inductive SettingFault where
  | refused (refusal : Refusal)
  | belowRange
  | aboveRange
  | indentNotBlank (quoted : Text)
  | notIdentifier (quoted : Text)
  | namedThis
  | markerBlank
  | maskWildcards (quoted : Text)
  | maskIsPath (quoted : Text)
  | unknownLevel (value : Text)
  | sameMasks (mask : Text)
  deriving DecidableEq

/-- The names of the log levels that settings may have. -/
def Settings.logLevels : List String :=
  ["DEBUG", "INFO", "WARNING", "ERROR", "CRITICAL"]

namespace SettingFault

/-- The wording of a broken rule. -/
def rule : SettingFault → Option String
  | indentNotBlank quoted =>
      some ("indent_str must be a non-empty run of spaces and/or tabs, got " ++ str quoted)
  | notIdentifier quoted =>
      some ("fixture_name must be a JavaScript identifier, got " ++ str quoted)
  | namedThis => some "fixture_name cannot be 'this'"
  | markerBlank => some "mock_marker cannot be empty or whitespace-only"
  | maskWildcards quoted =>
      some ("File masks must contain exactly one '*' wildcard, got " ++ str quoted)
  | maskIsPath quoted => some ("File masks name files, not paths, got " ++ str quoted)
  | unknownLevel value =>
      some ("log_level must be one of: " ++ String.intercalate ", " Settings.logLevels ++
        ", got '" ++ str value ++ "'")
  | sameMasks mask =>
      some ("input_mask and output_mask are both '" ++ str mask ++
        "': converted files would overwrite their sources")
  | _ => none

/-- The wording of a fault, with the name of its type. -/
def message (fault : SettingFault) : String :=
  match fault with
  | refused refusal => refusal.wording ++ " [type=" ++ refusal.problem ++ "]"
  | belowRange => "Input should be greater than or equal to 0 [type=greater_than_equal]"
  | aboveRange => "Input should be less than or equal to 20 [type=less_than_equal]"
  | _ => "Value error, " ++ fault.rule.getD "" ++ " [type=value_error]"

end SettingFault

/-- Why settings are refused: some values are invalid, or their file could not be loaded. A fault
about several settings has no key. -/
inductive SettingsError where
  | invalid (faults : List (Option SettingKey × SettingFault))
  | unloadable (reason : String)
  deriving DecidableEq

namespace SettingsError

/-- The wording of one fault, behind the name of its setting. -/
def faultText (fault : Option SettingKey × SettingFault) : String :=
  ((fault.1.map fun key => "\n" ++ key.name).getD "") ++ "\n  " ++ fault.2.message

/-- The wording of an error. -/
def message : SettingsError → String
  | invalid faults =>
      "Invalid converter configuration: " ++ toString faults.length ++ " validation error" ++
        (if faults.length = 1 then "" else "s") ++ " for ValidatedConverterConfig" ++
        String.join (faults.map faultText)
  | unloadable reason => "Error loading configuration file: " ++ reason

/-- The name of the setting that an error is about. -/
def key : SettingsError → Option String
  | invalid faults => faults.head?.bind fun fault => fault.1.map (·.name)
  | unloadable _ => some "config_file"

end SettingsError

namespace SettingValue

/-- A text in capital letters, as far as capitals of ASCII arise. -/
def capitals (text : Text) : Text :=
  text.map fun c => if c == 'ı' then 'I' else if c == 'ſ' then 'S' else c.toUpper

/-- What is wrong with an indent unit. -/
def indentUnitFault? (value : Text) : Option SettingFault :=
  if value.isEmpty || !value.all isIndent then some (.indentNotBlank (quoted value)) else none

/-- Whether a text is an identifier. -/
def isIdentifier (value : Text) : Bool :=
  value.head?.any isIdentifierStart && value.all isIdentifierPart

/-- What is wrong with a fixture variable. -/
def fixtureFault? (value : Text) : Option SettingFault :=
  if !isIdentifier value then some (.notIdentifier (quoted value))
  else if value = "this".toList then some .namedThis
  else none

/-- What is wrong with a marker of mock verifications. -/
def markerFault? : Content → Option SettingFault
  | .text value => if isBlankText value then some .markerBlank else none
  | .codes _ => none

/-- What is wrong with a mask. -/
def maskFault? (mask : Codes) : Option SettingFault :=
  if mask.count '*'.toNat ≠ 1 then some (.maskWildcards (quotedCodes mask))
  else if mask.contains '/'.toNat || mask.contains '\\'.toNat then some (.maskIsPath (quotedCodes mask))
  else none

/-- A string that has to be a text and keep a rule. Codes that are no text break the rule. -/
def textThat (fault? : Text → Option SettingFault) (codesFault : Codes → SettingFault)
    (codes : Codes) : Except SettingFault Text :=
  match Content.ofCodes codes with
  | .codes values => .error (codesFault values)
  | .text text =>
    match fault? text with
    | some fault => .error fault
    | none => .ok text

/-- A value that has to keep a rule. -/
def that {α : Type} (fault? : α → Option SettingFault) (value : α) : Except SettingFault α :=
  match fault? value with
  | some fault => .error fault
  | none => .ok value

/-- A string that has to name a log level. -/
def levelThat (codes : Codes) : Except SettingFault Text :=
  match Content.ofCodes codes with
  | .codes values => .error (.unknownLevel (Content.codes values).replaced)
  | .text text =>
    let level := capitals text
    if Settings.logLevels.contains (str level) then .ok level else .error (.unknownLevel text)

end SettingValue

namespace Coercions

variable {ω : Type} (coercions : Coercions ω)

/-- A value that has to be a string and pass a check. -/
def asStringThat {α : Type} (check : Codes → Except SettingFault α) (value : SettingValue ω) :
    Except SettingFault α := do
  check (← (coercions.string value).mapError .refused)

/-- A value that has to be an indent level or absent. -/
def asLevel (value : SettingValue ω) : Except SettingFault (Option Nat) :=
  match value with
  | .null => .ok none
  | value => do
    let level ← (coercions.integer value).mapError .refused
    if level < 0 then .error .belowRange
    else if level > 20 then .error .aboveRange
    else .ok (some level.toNat)

/-- A value that has to be a truth value. -/
def asBoolean (value : SettingValue ω) : Except SettingFault Bool :=
  (coercions.boolean value).mapError .refused

end Coercions

namespace Settings

variable {ω : Type}

/-- The value of a setting, or its default when none was given. A fault is added to those that
came before. -/
def field {α : Type} (values : SettingValues ω) (key : SettingKey) (default : α)
    (read : SettingValue ω → Except SettingFault α) :
    StateM (List (Option SettingKey × SettingFault)) α := do
  match values.get? key with
  | none => return default
  | some value =>
    match read value with
    | .ok found => return found
    | .error fault => do
      modify (· ++ [(some key, fault)])
      return default

/-- The settings that values give, with the faults of the values. -/
def fields (coercions : Coercions ω) (values : SettingValues ω) :
    StateM (List (Option SettingKey × SettingFault)) Settings := do
  let default : Settings := {}
  let indentUnit ← field values .indentUnit default.indentUnit
    (coercions.asStringThat (SettingValue.textThat SettingValue.indentUnitFault? fun codes =>
      .indentNotBlank (quotedCodes codes)))
  let indentLevel ← field values .indentLevel default.indentLevel coercions.asLevel
  let fixtureName ← field values .fixtureName default.fixtureName
    (coercions.asStringThat (SettingValue.textThat SettingValue.fixtureFault? fun codes =>
      .notIdentifier (quotedCodes codes)))
  let mockMarker ← field values .mockMarker default.mockMarker
    (coercions.asStringThat fun codes => SettingValue.that SettingValue.markerFault? (.ofCodes codes))
  let convertGlobals ← field values .convertGlobals default.convertGlobals coercions.asBoolean
  let inputMask ← field values .inputMask default.inputMask
    (coercions.asStringThat (SettingValue.that SettingValue.maskFault?))
  let outputMask ← field values .outputMask default.outputMask
    (coercions.asStringThat (SettingValue.that SettingValue.maskFault?))
  let logLevel ← field values .logLevel default.logLevel
    (coercions.asStringThat SettingValue.levelThat)
  let failFast ← field values .failFast default.failFast coercions.asBoolean
  let dryRun ← field values .dryRun default.dryRun coercions.asBoolean
  return { indentUnit, indentLevel, fixtureName, mockMarker, convertGlobals, inputMask, outputMask,
           logLevel, failFast, dryRun }

/-- The settings that values give. Names that are no setting do not count. -/
def ofValues (coercions : Coercions ω) (values : SettingValues ω) : Except SettingsError Settings :=
  let (settings, faults) := (fields coercions values).run []
  if !faults.isEmpty then .error (.invalid faults)
  else if settings.inputMask = settings.outputMask then
    .error (.invalid [(none, .sameMasks (Content.ofCodes settings.inputMask).replaced)])
  else .ok settings

/-- What is unusual about an indent unit, though it is allowed. -/
def indentIssues (unit : Text) : List String :=
  (if unit.all (· == ' ') && unit.length ≠ 2 && unit.length ≠ 4 then
    ["indent_str of " ++ toString unit.length ++ " spaces is unusual; 2 or 4 are typical"]
  else []) ++
  (if unit.contains ' ' && unit.contains '\t' then ["indent_str mixes tabs and spaces"] else [])

/-- The warnings about settings that are allowed but unusual. -/
def warnings (settings : Settings) : List String :=
  let issues := indentIssues settings.indentUnit
  if issues.isEmpty then []
  else ["Configuration issues: " ++ String.intercalate ", " issues]

/-- The unit that the text of an indent stands for: a tab by name, or a number of spaces, for which
there may be no room. Any other text is taken as it is. -/
def parseIndent (room : Nat → Option RoomFault) (text : Text) : Except IndentFault Text :=
  let word := text.map Char.toLower
  if word = "tab".toList || word = "\\t".toList then .ok ['\t']
  else if !text.isEmpty && text.all isDigit then
    match Integer.read 10 (text.map Char.toNat) with
    | .error fault => .error (.number fault)
    | .ok width =>
      match room width.toNat with
      | some fault => .error (.noRoom fault)
      | none => .ok (List.replicate width.toNat ' ')
  else .ok text

/-- The rank below which log records are dropped, for the name of a threshold in any case. An
unknown name stands for that of information, but the log must not have it for something else. -/
def logRank (level : Text) : Except NotThreshold Nat :=
  let name := str (SettingValue.capitals level)
  match NotThreshold.ofName? name with
  | some other => .error other
  | none => .ok ((LogLevel.rankOfName? name).getD LogLevel.info.rank)

end Settings

end JasmineConversion
