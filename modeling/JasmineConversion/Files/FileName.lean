import JasmineConversion.Files.Path

/-! # Names of files

The names that a file system keeps are bytes. A program sees them as UTF-8, and a byte that is part of
no character as half of a surrogate pair, which stands for this byte again where a path is handed to the
system. The other halves stand for nothing, and a string that holds one, or a NUL, cannot be handed to
the system.
-/

namespace JasmineConversion

open Text

/-- A name as a file system keeps it. -/
abbrev FileName := List UInt8

/-- Why a string cannot be handed to the system. Of the halves of surrogate pairs in it, those from the
first that stands for no byte are given up to the next character. -/
inductive Hazard where
  | halves (position : Nat) (codes : List Nat)
  | nul
  deriving DecidableEq

namespace FileName

/-- The name that leads upwards. -/
def parent : FileName := ['.', '.'].flatMap String.utf8EncodeChar

/-! ## Bytes as codes -/

/-- The character that bytes begin with. -/
def char? (bytes : List UInt8) : Option Char :=
  bytes.toByteArray.utf8DecodeChar? 0

/-- The code that stands for a byte of no character. -/
def escape (byte : UInt8) : Nat :=
  0xDC00 + byte.toNat

/-- The codes of bytes from the index `skip` on. -/
def decodeFrom : (skip : Nat) → List UInt8 → Codes
  | _, [] => []
  | skip + 1, _ :: rest => decodeFrom skip rest
  | 0, byte :: rest =>
    match char? (byte :: rest) with
    | some c => c.toNat :: decodeFrom (c.utf8Size - 1) rest
    | none => escape byte :: decodeFrom 0 rest

/-- The string that a program sees for a name. -/
def decode (name : FileName) : Codes :=
  decodeFrom 0 name

/-! ## Codes as bytes -/

/-- Whether a code is half of a surrogate pair. -/
def isHalf (code : Nat) : Bool :=
  (Content.charOf? code).isNone

/-- Whether a code is half of a surrogate pair that stands for no byte. -/
def isBare (code : Nat) : Bool :=
  isHalf code && !(0xDC80 ≤ code && code ≤ 0xDCFF)

/-- The bytes of a code. One that stands for none has none. -/
def encodeCode (code : Nat) : List UInt8 :=
  match Content.charOf? code with
  | some c => String.utf8EncodeChar c
  | none => if isBare code then [] else [UInt8.ofNat (code - 0xDC00)]

/-- The bytes that a string is handed to the system as, if it can be. -/
def encode (codes : Codes) : FileName :=
  codes.flatMap encodeCode

/-- What keeps a string from being handed to the system, if anything does. -/
def hazard? (codes : Codes) : Option Hazard :=
  match codes.findIdx? isBare with
  | some position => some (.halves position ((codes.drop position).takeWhile isHalf))
  | none => if codes.contains 0 then some .nul else none

end FileName

/-- What keeps a path from being handed to the system. -/
def Path.hazard? (path : Path) : Option Hazard :=
  FileName.hazard? path.codes

end JasmineConversion
