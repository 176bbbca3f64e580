import JasmineConversion.Text.Basic

/-! # Bytes written in base 64

Four characters stand for three bytes. Characters that are none of the 64 do not count, and equals
signs fill up the last four.
-/

namespace JasmineConversion.Yaml

open Text

namespace Binary

/-- The value of a character. -/
def value? (c : Char) : Option Nat :=
  if c.isUpper then some (c.toNat - 'A'.toNat)
  else if c.isLower then some (c.toNat - 'a'.toNat + 26)
  else if c.isDigit then some (c.toNat - '0'.toNat + 52)
  else if c == '+' then some 62
  else if c == '/' then some 63
  else none

/-- Where the reading of bytes stands: how many characters of the last four were read and the bits
they leave over, and how many equals signs follow them. -/
structure Quad where
  place : Nat := 0
  left : Nat := 0
  filled : Nat := 0

/-- Reads bytes. Behind the equals signs that fill up four characters nothing counts, and at the
end no four may be left open. -/
def readFrom : Quad → Text → Option (List UInt8)
  | quad, [] => if quad.place = 0 then some [] else none
  | quad, c :: rest =>
    if c == '=' then
      if quad.place < 2 then readFrom quad rest
      else if quad.place + quad.filled + 1 ≥ 4 then some []
      else readFrom { quad with filled := quad.filled + 1 } rest
    else
      match value? c with
      | none => readFrom quad rest
      | some value =>
        let bits := quad.left * 64 + value
        match quad.place with
        | 0 => readFrom ⟨1, value, 0⟩ rest
        | 1 => (readFrom ⟨2, bits % 16, 0⟩ rest).map (UInt8.ofNat (bits / 16) :: ·)
        | 2 => (readFrom ⟨3, bits % 4, 0⟩ rest).map (UInt8.ofNat (bits / 4) :: ·)
        | _ => (readFrom {} rest).map (UInt8.ofNat bits :: ·)

/-- The bytes that a text of ASCII gives. -/
def read? (text : Text) : Option (List UInt8) :=
  if text.all fun c => c.toNat < 128 then readFrom {} text else none

end Binary

end JasmineConversion.Yaml
