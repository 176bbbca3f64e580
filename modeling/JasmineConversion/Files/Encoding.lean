import JasmineConversion.Text.Quoted

/-! # Reading bytes as text

Files hold text as UTF-8. A fault is reported with the bytes that belong to it: those of the
character that was begun.
-/

namespace JasmineConversion

open Text

/-- How bytes fail to be UTF-8. -/
inductive EncodingFault where
  | startByte
  | continuationByte
  | endOfData
  deriving DecidableEq

/-- A fault in the encoding of a text: the bytes it is about, and the position of the first. -/
structure EncodingError where
  fault : EncodingFault
  position : Nat
  bytes : List UInt8
  deriving DecidableEq

namespace EncodingError

/-- The wording of a fault. -/
def reason : EncodingFault → String
  | .startByte => "invalid start byte"
  | .continuationByte => "invalid continuation byte"
  | .endOfData => "unexpected end of data"

/-- The wording of an error. -/
def message (error : EncodingError) : String :=
  "'utf-8' codec can't decode " ++
    (match error.bytes with
    | [byte] => "byte 0x" ++ str (hex 2 byte.toNat) ++ " in position " ++ toString error.position
    | bytes => "bytes in position " ++ toString error.position ++ "-" ++
        toString (error.position + bytes.length - 1)) ++
    ": " ++ reason error.fault

end EncodingError

namespace Encoding

/-- What the first byte of a character tells: the bits it gives, and the ranges of the bytes that
must follow it. -/
def lead? (byte : UInt8) : Option (Nat × List (Nat × Nat)) :=
  let n := byte.toNat
  let plain : Nat × Nat := (0x80, 0xBF)
  if n < 0x80 then some (n, [])
  else if n < 0xC2 then none
  else if n < 0xE0 then some (n % 0x20, [plain])
  else if n = 0xE0 then some (0, [(0xA0, 0xBF), plain])
  else if n = 0xED then some (n % 0x10, [(0x80, 0x9F), plain])
  else if n < 0xF0 then some (n % 0x10, [plain, plain])
  else if n = 0xF0 then some (0, [(0x90, 0xBF), plain, plain])
  else if n < 0xF4 then some (n % 8, [plain, plain, plain])
  else if n = 0xF4 then some (4, [(0x80, 0x8F), plain, plain])
  else none

/-- A character that was begun: its position, its bytes so far, the bits they give, and the ranges
of the bytes that must follow. Without ranges there is no such character. -/
structure Pending where
  position : Nat
  bytes : List UInt8
  bits : Nat
  ranges : List (Nat × Nat)

/-- Whether a byte behind those of a character that was begun makes it a half of a surrogate
pair. -/
def isSurrogate (pending : Pending) (byte : UInt8) : Bool :=
  pending.bytes == [0xED] && 0xA0 ≤ byte && byte ≤ 0xBF

/-- Reads bytes as text, from a position on. The character that they leave unfinished is given as
well. A half of a surrogate pair is refused only with its third byte. -/
def decodeFrom : (pending : Option Pending) → (position : Nat) → List UInt8 →
    Except EncodingError (Text × Option Pending)
  | pending, _, [] => .ok ([], pending)
  | none, position, byte :: rest =>
    match lead? byte with
    | none => .error ⟨.startByte, position, [byte]⟩
    | some (bits, []) => do
      let (text, pending) ← decodeFrom none (position + 1) rest
      return (Char.ofNat bits :: text, pending)
    | some (bits, ranges) => decodeFrom (some ⟨position, [byte], bits, ranges⟩) (position + 1) rest
  | some pending, position, byte :: rest =>
    match pending.ranges with
    | [] => .error ⟨.continuationByte, pending.position, pending.bytes⟩
    | (least, greatest) :: ranges =>
      if least ≤ byte.toNat && byte.toNat ≤ greatest then
        let bits := pending.bits * 0x40 + byte.toNat % 0x40
        if ranges.isEmpty then do
          let (text, pending) ← decodeFrom none (position + 1) rest
          return (Char.ofNat bits :: text, pending)
        else
          decodeFrom (some ⟨pending.position, pending.bytes ++ [byte], bits, ranges⟩)
            (position + 1) rest
      else if isSurrogate pending byte && rest.isEmpty then
        .ok ([], some { pending with ranges := [] })
      else .error ⟨.continuationByte, pending.position, pending.bytes⟩

/-- Goes on only if no character is left unfinished. -/
def requireFinished : Option Pending → Except EncodingError Unit
  | none => .ok ()
  | some pending =>
    let fault := if pending.ranges.isEmpty then EncodingFault.continuationByte else .endOfData
    .error ⟨fault, pending.position, pending.bytes⟩

/-- Reads bytes as text. -/
def decode (bytes : List UInt8) : Except EncodingError Text := do
  let (text, pending) ← decodeFrom none 0 bytes
  requireFinished pending
  return text

/-- The bytes of a text. -/
def encode (text : Text) : List UInt8 :=
  text.flatMap String.utf8EncodeChar

/-- A text in which every line ends with a line feed: a carriage return, with the line feed that
may follow it, counts as one. -/
def unifyLineEnds : Text → Text
  | '\r' :: '\n' :: rest => '\n' :: unifyLineEnds rest
  | '\r' :: rest => '\n' :: unifyLineEnds rest
  | c :: rest => c :: unifyLineEnds rest
  | [] => []

/-- The text that a file with the given bytes holds. -/
def read (bytes : List UInt8) : Except EncodingError Text :=
  (decode bytes).map unifyLineEnds

end Encoding

end JasmineConversion
