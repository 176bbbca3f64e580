import JasmineConversion.Error
import JasmineConversion.Text.Replace

/-! # References to the test case itself

Inside a body, `this` refers to the test case. Its members move to a fixture variable, so a
member access on `this` becomes one on the fixture. The name of the fixture is taken as the
template of a replacement, which an identifier is for itself.
-/

namespace JasmineConversion.Body

open Text

/-- The text of a member access on `this`, up to its dot. -/
def selfAccess : Text := "this.".toList

/-- A member access on `this`, up to its dot, and what takes its place. -/
def selfReference (replacement : Template) : Finder := fun previous text =>
  match after? selfAccess text with
  | some rest =>
    if startsFresh previous && rest.head?.any isIdentifierStart then
      some (selfAccess.length, replacement.fill selfAccess)
    else none
  | none => none

/-- Code with the member accesses on `this` made on the fixture. -/
def replaceSelf (fixture code : Text) : Except SourceError Text :=
  match Template.parse (fixture ++ ['.']) with
  | .ok replacement => .ok (replaceAll (selfReference replacement) code)
  | .error error => .error ⟨.template error, none⟩

end JasmineConversion.Body
