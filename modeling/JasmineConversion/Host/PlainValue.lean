import JasmineConversion.Literal.Binary64
import JasmineConversion.Settings.Host

/-! # Values of the usual kinds

Settings are given as values of the usual kinds. A library takes them for values of a declared type as
far as nothing is lost: numbers without a fraction, words for truth values, texts that write a number,
and bytes for the text they hold.
-/

namespace JasmineConversion

open Text

/-- A value that is neither a truth value nor an integer nor a string. A fraction without a number is not
a number at all. What lists, mappings and the like hold does not count. -/
inductive PlainValue where
  | fraction (value : Option Binary64)
  | bytes (values : List UInt8)
  | list
  | mapping
  | foreign
  deriving DecidableEq

namespace PlainValue

/-! ## Why a value is refused -/

/-- A value that is no string. -/
def notString : Refusal :=
  ⟨"Input should be a valid string", "string_type"⟩

/-- A string or bytes that are no text. -/
def notUnicode : Refusal :=
  ⟨"Input should be a valid string, unable to parse raw data as a unicode string", "string_unicode"⟩

/-- A value that is no integer. -/
def notInteger : Refusal :=
  ⟨"Input should be a valid integer", "int_type"⟩

/-- A text that writes no integer. -/
def notIntegerText : Refusal :=
  ⟨"Input should be a valid integer, unable to parse string as an integer", "int_parsing"⟩

/-- A number that is no integer. -/
def hasFraction : Refusal :=
  ⟨"Input should be a valid integer, got a number with a fractional part", "int_from_float"⟩

/-- A fraction that is no number. -/
def notFinite : Refusal :=
  ⟨"Input should be a finite number", "finite_number"⟩

/-- A text or a fraction that denotes too large an integer. -/
def tooLargeToRead : Refusal :=
  ⟨"Unable to parse input string as an integer, exceeded maximum size", "int_parsing_size"⟩

/-- A value that is no truth value. -/
def notBoolean : Refusal :=
  ⟨"Input should be a valid boolean", "bool_type"⟩

/-- A text or a number that stands for no truth value. -/
def notBooleanText : Refusal :=
  ⟨"Input should be a valid boolean, unable to interpret input", "bool_parsing"⟩

/-! ## Numerals -/

/-- White space that may surround a numeral. -/
def surroundsNumeral (c : Char) : Bool :=
  isBlank c && !(0x1C ≤ c.toNat && c.toNat ≤ 0x1F)

/-- Whether a numeral goes on from a character without zeros in front of it. -/
def startsNumeral (c : Char) : Bool :=
  ('1' ≤ c && c ≤ '9') || c == '-'

/-- What follows leading zeros and underscores, `previous` being the last of them. The last one is
kept where a point follows or nothing does. -/
def afterZeros? (previous : Char) : Text → Option Text
  | [] => some [previous]
  | c :: rest =>
    if c == '0' || c == '_' then afterZeros? c rest
    else if startsNumeral c then some (c :: rest)
    else if c == '.' then some (previous :: c :: rest)
    else none

/-- A numeral without a sign and without leading zeros. -/
def dropUnsignedZeros? : Text → Option Text
  | [] => none
  | c :: rest =>
    if c == '0' then afterZeros? c rest else if '1' ≤ c && c ≤ '9' then some (c :: rest) else none

/-- A numeral without leading zeros. A minus sign stays in front of what follows it. -/
def dropZeros? : Text → Option Text
  | '-' :: rest => (dropUnsignedZeros? rest).map ('-' :: ·)
  | value => dropUnsignedZeros? value

/-- A numeral without a fraction of zeros. -/
def dropFraction (value : Text) : Text :=
  match value.dropWhile (· != '.') with
  | '.' :: '0' :: zeros => if zeros.all (· == '0') then value.takeWhile (· != '.') else value
  | _ => value

/-- A numeral without its underscores. They must not stand at an end or next to each other. -/
def dropUnderscores? (value : Text) : Option Text :=
  if value.head? = some '_' || value.getLast? = some '_' || occursIn "__".toList value then none
  else some (value.filter (· != '_'))

/-- The numeral that a text gives, reduced to a sign and digits. A plus sign counts for nothing. -/
def plainNumeral? (value : Text) : Option Text := do
  let value := dropEndWhile surroundsNumeral (value.dropWhile surroundsNumeral)
  let value ← match value with
    | '+' :: '-' :: _ => none
    | '+' :: rest => some rest
    | _ => some value
  dropUnderscores? (dropFraction (← dropZeros? value))

/-- The integer that a text denotes. -/
def integerOf (value : Text) : Except Refusal Int :=
  match plainNumeral? value with
  | none => .error notIntegerText
  | some numeral =>
    let (negative, digits) : Bool × Text := match numeral with
      | '-' :: digits => (true, digits)
      | digits => (false, digits)
    if digits.isEmpty || !digits.all Char.isDigit || (digits.length > 1 && digits.head? = some '0')
    then .error notIntegerText
    else if digits.length > digitLimit then .error tooLargeToRead
    else
      let size : Int := Numeral.ofDigits digits
      .ok (if negative then -size else size)

/-- Whether an integer has 64 bits. -/
def fitsWord (value : Int) : Bool :=
  -(twoTo 63 : Int) ≤ value && value < (twoTo 63 : Int)

/-- Whether an integer and its opposite have 64 bits. -/
def fitsWordBothWays (value : Int) : Bool :=
  fitsWord value && fitsWord (-value)

/-- The texts that stand for `true`, in small letters. -/
def yesTexts : List String := ["true", "t", "yes", "y", "on", "1"]

/-- The texts that stand for `false`, in small letters. -/
def noTexts : List String := ["false", "f", "no", "n", "off", "0"]

/-- The truth value of a number. -/
def booleanOf (value : Int) : Except Refusal Bool :=
  if value = 0 then .ok false else if value = 1 then .ok true else .error notBooleanText

/-- The truth value that a text stands for. -/
def booleanOfText (value : Text) : Except Refusal Bool :=
  let word := str (value.map Char.toLower)
  if yesTexts.contains word then .ok true
  else if noTexts.contains word then .ok false
  else .error notBooleanText

/-! ## Taking values for others -/

/-- The text of a string. -/
def textOf (codes : Codes) : Except Refusal Text :=
  match Content.ofCodes codes with
  | .text text => .ok text
  | .codes _ => .error notUnicode

/-- A value taken for a string. -/
def asString : SettingValue PlainValue → Except Refusal Codes
  | .string codes => .ok codes
  | .other (.bytes values) =>
    match Encoding.decode values with
    | .ok text => .ok (.ofText text)
    | .error _ => .error notUnicode
  | _ => .error notString

/-- A value taken for an integer. -/
def asInteger : SettingValue PlainValue → Except Refusal Int
  | .integer value => .ok value
  | .boolean value => .ok (if value then 1 else 0)
  | .other (.fraction none) => .error notFinite
  | .other (.fraction (some (.infinite _))) => .error notFinite
  | .other (.fraction (some value)) =>
    match value.toInt? with
    | none => .error hasFraction
    | some whole => if fitsWordBothWays whole then .ok whole else .error tooLargeToRead
  | .string codes => do integerOf (← textOf codes)
  | .other (.bytes values) =>
    match Encoding.decode values with
    | .ok text => integerOf text
    | .error _ => .error notIntegerText
  | _ => .error notInteger

/-- A value taken for a truth value. -/
def asBoolean : SettingValue PlainValue → Except Refusal Bool
  | .boolean value => .ok value
  | .integer value => if fitsWord value then booleanOf value else .error notBoolean
  | .other (.fraction (some value)) =>
    match value.toInt? with
    | some whole => if fitsWordBothWays whole then booleanOf whole else .error notBoolean
    | none => .error notBoolean
  | .string codes => do booleanOfText (← textOf codes)
  | .other (.bytes values) =>
    match Encoding.decode values with
    | .ok text => booleanOfText text
    | .error _ => .error notBooleanText
  | _ => .error notBoolean

/-- The coercions of values of the usual kinds. -/
def coercions : Coercions PlainValue :=
  ⟨asString, asInteger, asBoolean⟩

/-- Values of the declared types are taken as they are. -/
theorem coercions_lawful : coercions.Lawful :=
  ⟨fun _ => rfl, fun _ => rfl, fun _ => rfl⟩

end PlainValue

end JasmineConversion
