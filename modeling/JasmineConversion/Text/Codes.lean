import JasmineConversion.Text.Content

/-! # Strings of codes

Paths, masks and values of settings are strings that may hold halves of surrogate pairs. They are kept
as the codes of their characters and of these halves.
-/

namespace JasmineConversion

open Text

/-- A string as the list of its codes. -/
abbrev Codes := List Nat

namespace Codes

/-- The codes of a text. -/
def ofText (text : Text) : Codes :=
  text.map Char.toNat

/-- The codes of a string without halves of surrogate pairs. -/
def ofString (string : String) : Codes :=
  ofText string.toList

/-- Whether a code is that of a blank character. -/
def isBlankCode (code : Nat) : Bool :=
  (Content.charOf? code).any isBlank

/-- Whether a string holds blank characters only. -/
def isBlank (codes : Codes) : Bool :=
  codes.all isBlankCode

/-- The order of strings by codes. -/
def before : (first second : Codes) → Bool
  | _, [] => false
  | [], _ :: _ => true
  | a :: first, b :: second => a < b || (a == b && before first second)

/-- The text of a string with the halves of surrogate pairs escaped, as messages show it. -/
def escaped (codes : Codes) : Text :=
  codes.flatMap fun code =>
    match Content.charOf? code with
    | some c => [c]
    | none => ['\\', 'u'] ++ hex 4 code

/-- A string with the halves of surrogate pairs escaped. -/
def shown (codes : Codes) : String :=
  str (escaped codes)

end Codes

end JasmineConversion
