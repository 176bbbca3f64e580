import JasmineConversion.Host.Yaml.Value
import JasmineConversion.Settings.Validation

/-! # The host that the program runs on

Values are of the usual kinds, documents are YAML, and texts take up memory of 64 bits' addresses.
-/

namespace JasmineConversion

open Text

namespace PlainValue

/-- A value as an indent. Bytes that are digits stand for a number of spaces, as a text does. -/
def asIndent (room : Nat → Option RoomFault) : PlainValue → Except IndentFault (SettingValue PlainValue)
  | fraction _ => .error (.notText "float")
  | list => .error (.notText "list")
  | mapping => .error (.notText "dict")
  | foreign => .error (.notText "object")
  | bytes values =>
    let text : Text := values.map fun byte => Char.ofNat byte.toNat
    if !text.isEmpty && text.all Char.isDigit then (Settings.parseIndent room text).map .ofText
    else .ok (.other (bytes values))

end PlainValue

namespace Host

/-- Why there is no room for a text. A length has 63 bits, and the memory for more than 36 bits of them
is not to be had. -/
def standardRoom (length : Nat) : Option RoomFault :=
  if length ≥ twoTo 63 then some .beyondCounting
  else if length ≥ twoTo 36 then some .beyondMemory
  else none

/-- The host that the program runs on. -/
def standard : Host PlainValue where
  toCoercions := PlainValue.coercions
  indent := PlainValue.asIndent standardRoom
  document := Yaml.readDocument
  room := standardRoom

end Host

end JasmineConversion
