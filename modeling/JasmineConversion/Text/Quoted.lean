import JasmineConversion.Text.Basic
import JasmineConversion.Text.Printable

/-! # Quoted text

Messages show a piece of text between quotes on one line. The quotes are single, unless the
text holds a single quote and no double quote. Characters that do not print are written with
their code in lower-case hexadecimal digits, of two, four or eight places.
-/

namespace JasmineConversion.Text

/-- The quote around a shown text. -/
def quoteFor (text : Text) : Char :=
  if text.contains '\'' && !text.contains '"' then '"' else '\''

/-- A number in hexadecimal digits, padded with zeros to a width. -/
def hex (width code : Nat) : Text :=
  let digits := Nat.toDigits 16 code
  List.replicate (width - digits.length) '0' ++ digits

/-- One character of a shown text. -/
def showChar (quote c : Char) : Text :=
  if c == quote || c == '\\' then ['\\', c]
  else if c == '\n' then ['\\', 'n']
  else if c == '\r' then ['\\', 'r']
  else if c == '\t' then ['\\', 't']
  else if isPrintable c then [c]
  else if c.toNat < 0x100 then ['\\', 'x'] ++ hex 2 c.toNat
  else if c.toNat < 0x10000 then ['\\', 'u'] ++ hex 4 c.toNat
  else ['\\', 'U'] ++ hex 8 c.toNat

/-- A text between quotes, as messages show it. -/
def quoted (text : Text) : Text :=
  let quote := quoteFor text
  [quote] ++ text.flatMap (showChar quote) ++ [quote]

/-- A quoted text as a string. -/
def shown (text : Text) : String :=
  str (quoted text)

/-- One code of a shown text. Half of a surrogate pair is no character and does not print. -/
def showCode (quote : Char) (code : Nat) : Text :=
  if Nat.isValidChar code then showChar quote (Char.ofNat code) else ['\\', 'u'] ++ hex 4 code

/-- Codes between quotes, as messages show them. -/
def quotedCodes (codes : List Nat) : Text :=
  let quote := quoteFor ((codes.filter fun code => Nat.isValidChar code).map Char.ofNat)
  [quote] ++ codes.flatMap (showCode quote) ++ [quote]

/-- Quoted codes as a string. -/
def shownCodes (codes : List Nat) : String :=
  str (quotedCodes codes)

end JasmineConversion.Text
