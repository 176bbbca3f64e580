import JasmineConversion.Text.Codes

/-! # Settings of a conversion -/

namespace JasmineConversion

open Text

/-- The settings of a conversion. Without an indent level, the code starts at that of the
container it takes the place of. A marker that is no text never occurs in one. -/
structure Settings where
  indentUnit : Text := ['\t']
  indentLevel : Option Nat := none
  fixtureName : Text := "thisSuite".toList
  mockMarker : Content := .text "JsMockito".toList
  convertGlobals : Bool := true
  inputMask : Codes := .ofString "*Test.js"
  outputMask : Codes := .ofString "*Spec.js"
  logLevel : Text := "INFO".toList
  failFast : Bool := false
  dryRun : Bool := false
  deriving DecidableEq

namespace Settings

/-- A truth value, as log records show it. -/
def showBool (value : Bool) : String :=
  if value then "True" else "False"

/-- The settings, as log records show them. -/
def describe (settings : Settings) : String :=
  "ConverterConfig(indent_str=" ++ shown settings.indentUnit ++
    ", indent_level=" ++ ((settings.indentLevel.map toString).getD "None") ++
    ", fixture_name=" ++ shown settings.fixtureName ++
    ", mock_marker=" ++ str settings.mockMarker.quoted ++
    ", convert_jshint_globals=" ++ showBool settings.convertGlobals ++
    ", input_mask=" ++ shownCodes settings.inputMask ++
    ", output_mask=" ++ shownCodes settings.outputMask ++
    ", log_level=" ++ shown settings.logLevel ++
    ", fail_fast=" ++ showBool settings.failFast ++
    ", dry_run=" ++ showBool settings.dryRun ++ ")"

end Settings

end JasmineConversion
