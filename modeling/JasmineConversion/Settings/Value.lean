import JasmineConversion.Settings.Basic

/-! # Values that settings are given as -/

namespace JasmineConversion

open Text

/-- A value that someone gave for a setting. Of what is neither a truth value nor an integer nor a
string, settings know nothing: it is a value of any type `ω`. -/
inductive SettingValue (ω : Type) where
  | null
  | boolean (value : Bool)
  | integer (value : Int)
  | string (codes : Codes)
  | other (value : ω)

/-- The settings by their names in files, in the order in which problems are reported. -/
inductive SettingKey where
  | indentUnit
  | indentLevel
  | fixtureName
  | mockMarker
  | convertGlobals
  | inputMask
  | outputMask
  | logLevel
  | failFast
  | dryRun
  deriving DecidableEq

/-- The name of a setting. -/
def SettingKey.name : SettingKey → String
  | indentUnit => "indent_str"
  | indentLevel => "indent_level"
  | fixtureName => "fixture_name"
  | mockMarker => "mock_marker"
  | convertGlobals => "convert_jshint_globals"
  | inputMask => "input_mask"
  | outputMask => "output_mask"
  | logLevel => "log_level"
  | failFast => "fail_fast"
  | dryRun => "dry_run"

/-- Values under names. The first value under a name counts. -/
abbrev SettingValues (ω : Type) := List (Text × SettingValue ω)

variable {ω : Type}

/-- The value of a setting, if one was given. -/
def SettingValues.get? (values : SettingValues ω) (key : SettingKey) : Option (SettingValue ω) :=
  (values.find? fun entry => entry.1 == key.name.toList).map (·.2)

/-- Whether a value is absent. -/
def SettingValue.isNull : SettingValue ω → Bool
  | null => true
  | _ => false

/-- The value of a number that may be absent. -/
def SettingValue.ofLevel : Option Nat → SettingValue ω
  | none => null
  | some level => integer level

/-- The value of a text. -/
def SettingValue.ofText (text : Text) : SettingValue ω :=
  string (.ofText text)

/-- Settings as values under their names. -/
def Settings.toValues (settings : Settings) : SettingValues ω :=
  [(SettingKey.indentUnit.name.toList, .ofText settings.indentUnit),
    (SettingKey.indentLevel.name.toList, .ofLevel settings.indentLevel),
    (SettingKey.fixtureName.name.toList, .ofText settings.fixtureName),
    (SettingKey.mockMarker.name.toList, .string settings.mockMarker.toCodes),
    (SettingKey.convertGlobals.name.toList, .boolean settings.convertGlobals),
    (SettingKey.inputMask.name.toList, .string settings.inputMask),
    (SettingKey.outputMask.name.toList, .string settings.outputMask),
    (SettingKey.logLevel.name.toList, .ofText settings.logLevel),
    (SettingKey.failFast.name.toList, .boolean settings.failFast),
    (SettingKey.dryRun.name.toList, .boolean settings.dryRun)]

end JasmineConversion
