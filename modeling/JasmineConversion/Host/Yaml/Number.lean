import JasmineConversion.Literal.Binary64
import JasmineConversion.Host.Yaml.SmallLetter
import JasmineConversion.Host.Yaml.Tag

/-! # Numbers in YAML

A number is written to the bases two, eight, ten or sixteen, or as hours, minutes and seconds
between colons. Underscores in it do not count.
-/

namespace JasmineConversion.Yaml.Number

open Text

/-- The codes of a number without the underscores. -/
def withoutLines (codes : List Nat) : List Nat :=
  codes.filter (· != '_'.toNat)

/-- The sign of a number, and the codes behind it. -/
def signed? : List Nat → Option (Bool × List Nat)
  | [] => none
  | code :: rest =>
    if code = '-'.toNat then some (true, rest)
    else if code = '+'.toNat then some (false, rest)
    else some (false, code :: rest)

/-- The pieces of a number between its colons. -/
def pieces (codes : List Nat) : List (List Nat) :=
  PlainScalar.splitAt ':'.toNat codes

/-- The codes of a text. -/
def codesOf (text : String) : List Nat :=
  text.toList.map Char.toNat

/-! ## Integers -/

/-- The size of an integer without its sign. -/
def size (codes : List Nat) : Except ValueFault Int := do
  let read (base : Nat) (codes : List Nat) := (Integer.read base codes).mapError .integer
  if codes = codesOf "0" then return 0
  else if codes.take 2 = codesOf "0b" then read 2 (codes.drop 2)
  else if codes.take 2 = codesOf "0x" then read 16 (codes.drop 2)
  else
    match codes with
    | [] => .error .emptyNumber
    | code :: _ =>
      if code = '0'.toNat then read 8 codes
      else if codes.contains ':'.toNat then
        let parts ← (pieces codes).mapM (read 10)
        return parts.foldl (fun value part => 60 * value + part) 0
      else read 10 codes

/-- The integer that codes denote. -/
def integer (codes : List Nat) : Except ValueFault Int :=
  match signed? (withoutLines codes) with
  | none => .error .emptyNumber
  | some (negative, body) => do
    let size ← size body
    return if negative then -size else size

/-! ## Fractions -/

/-- The fraction that codes denote, written with a point and an exponent or by name. Nothing inside
the result is no number. -/
def plainFraction (codes : List Nat) : Except ValueFault (Option Binary64) :=
  let (negative, body) : Bool × Text := match trimNumber (numberText codes) with
    | '-' :: body => (true, body)
    | '+' :: body => (false, body)
    | body => (false, body)
  let word := str (body.map Char.toLower)
  if word = "inf" || word = "infinity" then .ok (some (.infinite negative))
  else if word = "nan" then .ok none
  else if body.head? = some '-' then .error (.notFraction codes)
  else
    match Numeral.read? body with
    | some numeral => .ok (some { numeral with negative }.toBinary64)
    | none => .error (.notFraction codes)

/-- Adds a piece times a power of sixty to a sum. The power has to be a finite number. -/
def addPiece (total : Option Binary64) (power : Nat) (piece : Option Binary64) :
    Except ValueFault (Option Binary64) :=
  match Binary64.ofRatio false power 1 with
  | .infinite _ => .error .scaleTooLarge
  | scale => .ok do (← total).sum (← (← piece).product scale)

/-- The sum of pieces times powers of sixty, the last piece first. -/
def sumPieces : (total : Option Binary64) → (power : Nat) → List (Option Binary64) →
    Except ValueFault (Option Binary64)
  | total, _, [] => .ok total
  | total, power, piece :: rest => do sumPieces (← addPiece total power piece) (60 * power) rest

/-- The size of a fraction without its sign. -/
def fractionSize (codes : List Nat) : Except ValueFault (Option Binary64) := do
  if codes = codesOf ".inf" then return some (.infinite false)
  else if codes = codesOf ".nan" then return none
  else if codes.contains ':'.toNat then
    let parts ← (pieces codes).mapM plainFraction
    sumPieces (some (.ofRatio false 0 1)) 1 parts.reverse
  else plainFraction codes

/-- The fraction that codes denote. -/
def fraction (codes : List Nat) : Except ValueFault (Option Binary64) :=
  match signed? (smallCodes (withoutLines codes)) with
  | none => .error .emptyNumber
  | some (negative, body) => do
    let size ← fractionSize body
    return if negative then size.map Binary64.opposite else size

end JasmineConversion.Yaml.Number
