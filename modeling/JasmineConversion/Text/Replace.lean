import JasmineConversion.Text.Basic
import JasmineConversion.Text.Word

/-! # Replacing pieces of a text -/

namespace JasmineConversion.Text

/-- A pattern for a piece at the front of a text: how many characters it takes up and what takes
its place. The character before the text, if any, is known to it. -/
abbrev Finder := (previous : Option Char) → (text : Text) → Option (Nat × Text)

/-- Replaces the pieces that a pattern finds, from left to right. A replacement is not searched
again. `skipped` characters still belong to the last piece found. -/
def replaceFrom (find : Finder) : (skipped : Nat) → (previous : Option Char) → Text → Text
  | _, _, [] => []
  | skipped + 1, _, c :: rest => replaceFrom find skipped (some c) rest
  | 0, previous, c :: rest =>
    match find previous (c :: rest) with
    | some (width, replacement) => replacement ++ replaceFrom find (width - 1) (some c) rest
    | none => c :: replaceFrom find 0 (some c) rest

/-- Replaces all the pieces of a text that a pattern finds. -/
def replaceAll (find : Finder) (text : Text) : Text :=
  replaceFrom find 0 none text

/-- Whether a piece that starts with an identifier may start after a character: it must not go on
with an identifier that was begun before. -/
def startsFresh (previous : Option Char) : Bool :=
  !previous.any isIdentifierPart

end JasmineConversion.Text
