import JasmineConversion.Text.Quoted

/-! # Contents that may be no text

A text that is written with escapes may hold halves of surrogate pairs, which are no characters. It
is kept as the codes of its characters and of these halves.
-/

namespace JasmineConversion.Text

/-- The content of a scalar: a text, or codes that are none because halves of surrogate pairs are
among them. -/
inductive Content where
  | text (value : Text)
  | codes (values : List Nat)
  deriving DecidableEq

namespace Content

/-- The character with a code, if it is one. -/
def charOf? (code : Nat) : Option Char :=
  if Nat.isValidChar code then some (Char.ofNat code) else none

/-- The content that codes give. -/
def ofCodes (values : List Nat) : Content :=
  match values.mapM charOf? with
  | some value => text value
  | none => codes values

/-- The codes of a content. -/
def toCodes : Content → List Nat
  | text value => value.map Char.toNat
  | codes values => values

/-- Whether a content occurs in a text. Codes that are none do not. -/
def occursIn (content : Content) (text : Text) : Bool :=
  match content with
  | .text part => Text.occursIn part text
  | .codes _ => false

/-- A content between quotes, as messages show it. -/
def quoted : Content → Text
  | text value => Text.quoted value
  | codes values => quotedCodes values

/-- The text of a content where it has to be one. Each byte of half a surrogate pair is shown by a
replacement character. -/
def replaced : Content → Text
  | text value => value
  | codes values => values.flatMap fun code =>
      match charOf? code with
      | some c => [c]
      | none => List.replicate 3 '\uFFFD'

end Content

end JasmineConversion.Text
