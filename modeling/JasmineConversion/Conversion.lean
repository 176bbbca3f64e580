import JasmineConversion.Settings.Basic
import JasmineConversion.Spec.Globals
import JasmineConversion.Spec.Writer
import JasmineConversion.Suite.Reader

/-! # Converting a source text

The outer container of a source text is read, its bodies are adapted, and the spec for it takes
its place. All other text is kept, except for the list of global names.
-/

namespace JasmineConversion

open Text

/-- The outcome of a conversion with its log. -/
structure Conversion where
  log : List LogRecord
  outcome : Except SourceError Text

namespace Settings

/-- How bodies are adapted. -/
def bodyStyle (settings : Settings) : BodyStyle :=
  ⟨settings.fixtureName, settings.mockMarker⟩

/-- How the spec for a container is written. -/
def specStyle (settings : Settings) (found : OuterContainer) : Spec.Style :=
  ⟨settings.indentUnit, settings.indentLevel.getD found.indentLevel, settings.fixtureName⟩

end Settings

/-- The source text with a spec in place of its outer container. -/
def OuterContainer.splice (found : OuterContainer) (settings : Settings) (source spec : Text) :
    Text :=
  let converted := source.take found.start ++ spec ++ source.drop found.stop
  if settings.convertGlobals then Globals.convert converted else converted

/-- Converts a source text. -/
def Conversion.run (settings : Settings) (source : Text) : Conversion :=
  match SuiteReader.outer source {} with
  | .error error cursor => ⟨cursor.log, .error error⟩
  | .ok found cursor =>
    let (tree, trail) := found.tree.adapt settings.bodyStyle
    match trail.failure with
    | some error => ⟨cursor.log ++ trail.log, .error error⟩
    | none =>
      let spec := Spec.write (settings.specStyle found) tree
      let note : LogRecord := ⟨.conversion, .debug,
        "Converted '" ++ str tree.name ++ "' to " ++ toString (spec.count '\n' + 1) ++
          " lines of Jasmine"⟩
      ⟨cursor.log ++ trail.log ++ [note], .ok (found.splice settings source spec)⟩

/-- The converted source text. -/
def convert (settings : Settings) (source : Text) : Except SourceError Text :=
  (Conversion.run settings source).outcome

end JasmineConversion
