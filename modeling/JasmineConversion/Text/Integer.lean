import JasmineConversion.Text.Quoted
import JasmineConversion.Text.Word

/-! # Integers written in a text

An integer is written to a base, with a sign, white space around it and a mark of the base allowed.
Decimal digits of all scripts count, and single underscores between digits do not. The number of
digits is limited, unless the base is a power of two.
-/

namespace JasmineConversion

open Text

/-- Why a text is no integer. -/
inductive IntegerFault where
  | notInteger (base : Nat) (codes : List Nat)
  | tooManyDigits (count : Nat)
  deriving DecidableEq

/-- The most digits that an integer may be written with. -/
def digitLimit : Nat := 4300

/-- The wording of a fault. Only the beginning of a long text is shown. -/
def IntegerFault.message : IntegerFault → String
  | notInteger base codes =>
      "invalid literal for int() with base " ++ toString base ++ ": " ++
        str ((quotedCodes codes).take 200)
  | tooManyDigits count =>
      "Exceeds the limit (" ++ toString digitLimit ++
        " digits) for integer string conversion: value has " ++ toString count ++
        " digits; use sys.set_int_max_str_digits() to increase the limit"

namespace Text

/-- The text of ASCII that codes give for a number: white space and digits of all scripts become
those of ASCII. A question mark stands for what has no place in a number. -/
def numberText (codes : List Nat) : Text :=
  codes.map fun code =>
    let c := Char.ofNat code
    if code < 127 then c
    else if isBlank c then ' '
    else match decimal? c with
      | some digit => Char.ofNat ('0'.toNat + digit)
      | none => '?'

/-- Whether a character of ASCII may surround a number. -/
def surroundsNumber (c : Char) : Bool :=
  c == ' ' || (0x9 ≤ c.toNat && c.toNat ≤ 0xD)

/-- A text of ASCII without the white space around it. -/
def trimNumber (text : Text) : Text :=
  dropEndWhile surroundsNumber (text.dropWhile surroundsNumber)

/-- The value of a digit, letters being those from ten on. -/
def digitValue (c : Char) : Nat :=
  if c.isDigit then c.toNat - '0'.toNat
  else if 'a' ≤ c && c ≤ 'z' then c.toNat - 'a'.toNat + 10
  else if 'A' ≤ c && c ≤ 'Z' then c.toNat - 'A'.toNat + 10
  else 36

/-- What follows the mark of a base. -/
def afterBaseMark (base : Nat) (text : Text) : Text :=
  let marks : Text := if base = 16 then ['x', 'X'] else if base = 8 then ['o', 'O']
    else if base = 2 then ['b', 'B'] else []
  match text with
  | '0' :: mark :: '_' :: rest => if marks.contains mark then rest else text
  | '0' :: mark :: rest => if marks.contains mark then rest else text
  | _ => text

/-- Whether underscores stand only between two digits of a text. -/
def joinsDigits (text : Text) : Bool :=
  text.head? != some '_' && text.getLast? != some '_' && !occursIn "__".toList text

/-- The number that digits to a base denote. -/
def digitsNumber (base : Nat) (digits : Text) : Nat :=
  digits.foldl (fun value c => base * value + digitValue c) 0

end Text

/-- Reads an integer to a base. -/
def Integer.read (base : Nat) (codes : List Nat) : Except IntegerFault Int :=
  let (negative, body) : Bool × Text := match trimNumber (numberText codes) with
    | '-' :: body => (true, body)
    | '+' :: body => (false, body)
    | body => (false, body)
  let body := afterBaseMark base body
  let written := body.takeWhile fun c => digitValue c < base || c == '_'
  let digits := written.filter (· != '_')
  if !joinsDigits written then .error (.notInteger base codes)
  else if digits.length > digitLimit && base = 10 then .error (.tooManyDigits digits.length)
  else if digits.isEmpty || written.length < body.length then .error (.notInteger base codes)
  else
    let size : Int := digitsNumber base digits
    .ok (if negative then -size else size)

end JasmineConversion
