import JasmineConversion.Files.Encoding
import JasmineConversion.Text.Integer

/-! # Flaws of a YAML document

A document may not be well-formed, its bytes may not be text, or a value in it may not be what its
tag says. They are told apart, because only the first is a matter of the format.
-/

namespace JasmineConversion.Yaml

open Text

/-- A part of a point in time that is out of its range. -/
inductive MomentPart where
  | year
  | month
  | day
  | hour
  | minute
  | second
  deriving DecidableEq

/-- The wording for a part that is out of its range. -/
def MomentPart.message : MomentPart → String
  | year => "year 0 is out of range"
  | month => "month must be in 1..12"
  | day => "day is out of range for month"
  | hour => "hour must be in 0..23"
  | minute => "minute must be in 0..59"
  | second => "second must be in 0..59"

/-- Why a text is not a value of its type. -/
inductive ValueFault where
  | integer (fault : IntegerFault)
  | notFraction (codes : List Nat)
  | scaleTooLarge
  | emptyNumber
  | notTruth (codes : List Nat)
  | notMoment
  | momentOfCollection
  | outOfRange (part : MomentPart)
  | offsetTooLarge (minutes : Int)
  | codeTooLong
  | codeOutOfRange
  | endless
  deriving DecidableEq

/-- An amount of minutes in days and seconds, as messages show it. The seconds are not negative. -/
def showMinutes (minutes : Int) : String :=
  let days := Int.fdiv minutes 1440
  let seconds := 60 * Int.fmod minutes 1440
  "datetime.timedelta(" ++
    String.intercalate ", "
      ((if days = 0 then [] else ["days=" ++ toString days]) ++
        if seconds = 0 then [] else ["seconds=" ++ toString seconds]) ++ ")"

/-- The wording of a fault. -/
def ValueFault.message : ValueFault → String
  | integer fault => fault.message
  | notFraction codes => "could not convert string to float: " ++ shownCodes codes
  | scaleTooLarge => "int too large to convert to float"
  | emptyNumber => "string index out of range"
  | notTruth codes => shownCodes codes
  | notMoment => "'NoneType' object has no attribute 'groupdict'"
  | momentOfCollection => "expected string or bytes-like object, got 'list'"
  | outOfRange part => part.message
  | offsetTooLarge minutes =>
      "offset must be a timedelta strictly between -timedelta(hours=24) and " ++
        "timedelta(hours=24), not " ++ showMinutes minutes ++ "."
  | codeTooLong => "Python int too large to convert to C int"
  | codeOutOfRange => "chr() arg not in range(0x110000)"
  | endless => "maximum recursion depth exceeded"

/-- The kind of the error that a fault is. -/
def ValueFault.kind : ValueFault → String
  | scaleTooLarge => "OverflowError"
  | emptyNumber => "IndexError"
  | notTruth _ => "KeyError"
  | notMoment => "AttributeError"
  | momentOfCollection => "TypeError"
  | codeTooLong => "OverflowError"
  | endless => "RecursionError"
  | _ => "ValueError"

/-- What is wrong with a document. -/
inductive Flaw where
  | malformed
  | encoding (error : EncodingError)
  | value (fault : ValueFault)
  deriving DecidableEq

end JasmineConversion.Yaml
