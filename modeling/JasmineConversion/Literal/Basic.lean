import JasmineConversion.Entries
import JasmineConversion.Literal.Binary64

/-! # Plain literals -/

namespace JasmineConversion

/-- The value of a plain literal. Strings and keys keep their escapes as written. -/
inductive Literal where
  | null
  | boolean (value : Bool)
  | integer (value : Int)
  | fraction (value : Binary64)
  | string (value : Text)
  | array (items : List Literal)
  | object (entries : List (Text × Literal))

namespace Literal

/-- The value of a numeral: an integer when it is one and was written without a point. -/
def ofNumeral (numeral : Numeral) : Literal :=
  let value := numeral.toBinary64
  match value.toInt? with
  | some whole => if numeral.pointed then fraction value else integer whole
  | none => fraction value

end Literal

end JasmineConversion
