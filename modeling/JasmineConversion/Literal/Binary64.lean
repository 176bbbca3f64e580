import JasmineConversion.Text.Basic
import JasmineConversion.Text.Word

/-! # Decimal numerals and the binary64 numbers they denote

A numeral denotes the binary64 number nearest to its decimal value. A value halfway between two
neighbours goes to the one with the even mantissa, and a value too large for the format is
infinite. The arithmetic is exact.
-/

namespace JasmineConversion

open Text

/-- A power of two. -/
def twoTo (exponent : Nat) : Nat :=
  Nat.pow 2 exponent

/-- A power of ten. -/
def tenTo (exponent : Nat) : Nat :=
  Nat.pow 10 exponent

/-- A binary64 number. A finite one is `mantissa * 2 ^ exponent`, where the mantissa has 53 bits,
or fewer when the exponent is the least one. -/
inductive Binary64 where
  | finite (negative : Bool) (mantissa : Nat) (exponent : Int)
  | infinite (negative : Bool)
  deriving DecidableEq

namespace Binary64

/-- The least exponent of a finite number. -/
def leastExponent : Int := -1074

/-- The greatest exponent of a finite number. -/
def greatestExponent : Int := 971

/-- The quotient rounded to the nearest integer; a tie goes to the even one. -/
def roundQuotient (num den : Nat) : Nat :=
  let quotient := num / den
  let rest := num % den
  if 2 * rest > den || (2 * rest == den && quotient % 2 == 1) then quotient + 1 else quotient

/-- The numerator and denominator of `num / den / 2 ^ exponent`. -/
def scaled (num den : Nat) (exponent : Int) : Nat × Nat :=
  if exponent < 0 then (num * twoTo (-exponent).toNat, den) else (num, den * twoTo exponent.toNat)

/-- The exponent at which the quotient of two positive numbers has 53 bits, or the least one. -/
def exponentOf (num den : Nat) : Int :=
  let guess : Int := (num.log2 : Int) - (den.log2 : Int) - 52
  let parts := scaled num den guess
  let full := if parts.1 / parts.2 < twoTo 52 then guess - 1 else guess
  if full < leastExponent then leastExponent else full

/-- The number nearest to the quotient of two natural numbers, the second positive. -/
def ofRatio (negative : Bool) (num den : Nat) : Binary64 :=
  if num = 0 then finite negative 0 leastExponent
  else
    let exponent := exponentOf num den
    let parts := scaled num den exponent
    let mantissa := roundQuotient parts.1 parts.2
    let carried := mantissa == twoTo 53
    let mantissa := if carried then twoTo 52 else mantissa
    let exponent := if carried then exponent + 1 else exponent
    if exponent > greatestExponent then infinite negative else finite negative mantissa exponent

/-- The number nearest to `mantissa * 2 ^ exponent`. -/
def ofDyadic (negative : Bool) (mantissa : Nat) (exponent : Int) : Binary64 :=
  if exponent < 0 then ofRatio negative mantissa (twoTo (-exponent).toNat)
  else ofRatio negative (mantissa * twoTo exponent.toNat) 1

/-- The number with the opposite sign. -/
def opposite : Binary64 → Binary64
  | finite negative mantissa exponent => finite (!negative) mantissa exponent
  | infinite negative => infinite (!negative)

/-- Whether a number is negative. -/
def isNegative : Binary64 → Bool
  | finite negative _ _ => negative
  | infinite negative => negative

/-- Whether a number is zero. -/
def isZero : Binary64 → Bool
  | finite _ mantissa _ => mantissa == 0
  | infinite _ => false

/-- The number nearest to a product. Zero times an infinite number is not a number. -/
def product : Binary64 → Binary64 → Option Binary64
  | finite first mantissa exponent, finite second mantissa' exponent' =>
    some (ofDyadic (first != second) (mantissa * mantissa') (exponent + exponent'))
  | first, second =>
    if first.isZero || second.isZero then none
    else some (infinite (first.isNegative != second.isNegative))

/-- The number nearest to a sum. Opposite infinite numbers have none. -/
def sum : Binary64 → Binary64 → Option Binary64
  | finite first mantissa exponent, finite second mantissa' exponent' =>
    let least := if exponent < exponent' then exponent else exponent'
    let signed (negative : Bool) (mantissa : Nat) (exponent : Int) : Int :=
      let size : Int := (mantissa * twoTo (exponent - least).toNat : Nat)
      if negative then -size else size
    let total := signed first mantissa exponent + signed second mantissa' exponent'
    some (ofDyadic (total < 0) total.natAbs least)
  | infinite first, infinite second => if first = second then some (infinite first) else none
  | infinite first, _ => some (infinite first)
  | _, infinite second => some (infinite second)

/-- The greatest integer that the size of a finite number reaches. -/
def floor : Binary64 → Nat
  | infinite _ => 0
  | finite _ mantissa exponent =>
    if exponent < 0 then mantissa / twoTo (-exponent).toNat else mantissa * twoTo exponent.toNat

/-- The integer that a number is equal to, if there is one. -/
def toInt? : Binary64 → Option Int
  | infinite _ => none
  | finite negative mantissa exponent =>
    let sign : Int := if negative then -1 else 1
    if exponent < 0 then
      let unit := twoTo (-exponent).toNat
      if mantissa % unit = 0 then some (sign * (mantissa / unit : Nat)) else none
    else some (sign * (mantissa * twoTo exponent.toNat : Nat))

/-- The 64 bits of a number: the sign, eleven bits of exponent and 52 bits of mantissa. -/
def bits : Binary64 → Nat
  | infinite negative => (if negative then twoTo 63 else 0) + 2047 * twoTo 52
  | finite negative mantissa exponent =>
    let sign := if negative then twoTo 63 else 0
    if mantissa < twoTo 52 then sign + mantissa
    else sign + (exponent - leastExponent + 1).toNat * twoTo 52 + (mantissa - twoTo 52)

end Binary64

/-- A decimal numeral: `digits * 10 ^ exponent` with a sign, and whether a point was written. -/
structure Numeral where
  negative : Bool
  digits : Nat
  exponent : Int
  pointed : Bool
  deriving DecidableEq

namespace Numeral

/-- The number that decimal digits denote, the most significant first. -/
def ofDigits (digits : Text) : Nat :=
  digits.foldl (fun value c => 10 * value + (decimal? c).getD 0) 0

/-- The exponent after the digits of a numeral: nothing, or a mark with a signed number. -/
def exponent? : Text → Option Int
  | [] => some 0
  | mark :: rest =>
    if mark == 'e' || mark == 'E' then
      let (negative, digits) : Bool × Text := match rest with
        | '-' :: digits => (true, digits)
        | '+' :: digits => (false, digits)
        | digits => (false, digits)
      if digits.isEmpty || !digits.all isDecimal then none
      else
        let size : Int := ofDigits digits
        some (if negative then -size else size)
    else none

/-- Reads a numeral that takes up the whole text. -/
def read? (text : Text) : Option Numeral :=
  let (negative, body) : Bool × Text := match text with
    | '-' :: body => (true, body)
    | body => (false, body)
  let whole := body.takeWhile isDecimal
  match body.dropWhile isDecimal with
  | '.' :: rest =>
    let fraction := rest.takeWhile isDecimal
    if whole.isEmpty && fraction.isEmpty then none
    else do
      let exponent ← exponent? (rest.dropWhile isDecimal)
      return ⟨negative, ofDigits (whole ++ fraction), exponent - fraction.length, true⟩
  | rest =>
    if whole.isEmpty then none
    else do
      let exponent ← exponent? rest
      return ⟨negative, ofDigits whole, exponent, false⟩

/-- The binary64 number nearest to a numeral. A numeral whose leading digit stands far outside
the range of the format is infinite or zero without further work. -/
def toBinary64 (numeral : Numeral) : Binary64 :=
  let places : Int := (Nat.toDigits 10 numeral.digits).length + numeral.exponent
  if numeral.digits = 0 then .ofRatio numeral.negative 0 1
  else if places > 310 then .infinite numeral.negative
  else if places < -330 then .ofRatio numeral.negative 0 1
  else if numeral.exponent < 0 then
    .ofRatio numeral.negative numeral.digits (tenTo (-numeral.exponent).toNat)
  else .ofRatio numeral.negative (numeral.digits * tenTo numeral.exponent.toNat) 1

end Numeral

end JasmineConversion
