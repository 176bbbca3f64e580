import JasmineConversion.Error
import JasmineConversion.Text.Replace

/-! # Calls of helper methods

The helper methods of a test case become plain functions, so that they are no longer reached
through `this` or one of its usual aliases. The name of a helper is taken as the template of a
replacement, which an identifier is for itself.
-/

namespace JasmineConversion.Body

open Text

/-- The names through which a helper method is reached. -/
def selfNames : List Text :=
  ["this.".toList, "me.".toList, "self.".toList]

/-- Whether a character of ASCII continues an identifier. -/
def isPlainIdentifierPart (c : Char) : Bool :=
  c.isAlphanum || c == '_' || c == '$'

/-- A helper reached through one of the names, and what takes its place. -/
def helperReference (name : Text) (replacement : Template) : Finder := fun previous text =>
  if startsFresh previous then
    selfNames.findSome? fun owner => do
      let rest ← after? name (← after? owner text)
      if rest.head?.any isPlainIdentifierPart then none
      else some (owner.length + name.length, replacement.fill (owner ++ name))
  else none

/-- Code in which a helper is reached by its name alone. -/
def shortenHelper (code name : Text) : Except SourceError Text :=
  match Template.parse name with
  | .ok replacement => .ok (replaceAll (helperReference name replacement) code)
  | .error error => .error ⟨.template error, none⟩

/-- Code in which helpers are reached by their names alone, one helper after the other. -/
def shortenHelpers (names : List Text) (code : Text) : Except SourceError Text :=
  names.foldlM shortenHelper code

end JasmineConversion.Body
