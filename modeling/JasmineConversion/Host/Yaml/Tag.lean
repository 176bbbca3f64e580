import JasmineConversion.Host.Yaml.Moment
import JasmineConversion.Host.Yaml.Scalar

/-! # Tags of YAML nodes

A tag tells the type of a node. The text of a plain scalar tells it without one: nothing, a truth
value, a number, a point in time, or else a text. A line end behind such a text does not count.
-/

namespace JasmineConversion.Yaml

open Text

/-- A tag of the format itself, or any other one. -/
inductive Tag where
  | null
  | boolean
  | integer
  | fraction
  | moment
  | binary
  | text
  | sequence
  | orderedMap
  | pairs
  | mapping
  | set
  | merge
  | default
  | other
  deriving DecidableEq

namespace Tag

/-- The names of the tags behind their common beginning. -/
def names : List (String × Tag) :=
  [("null", null), ("bool", boolean), ("int", integer), ("float", fraction),
    ("timestamp", moment), ("binary", binary), ("str", text), ("seq", sequence),
    ("omap", orderedMap), ("pairs", pairs), ("map", mapping), ("set", set), ("merge", merge),
    ("value", default)]

/-- The common beginning of the tags of the format. -/
def lead : Text :=
  "tag:yaml.org,2002:".toList

/-- The tag with a text. -/
def ofText (tag : Text) : Tag :=
  match after? lead tag with
  | some name => ((names.find? fun entry => entry.1 == str name).map (·.2)).getD other
  | none => other

end Tag

namespace PlainScalar

/-- The texts of the absent value. -/
def nullTexts : List String := ["~", "null", "Null", "NULL"]

/-- The texts of truth values. -/
def truthTexts : List String :=
  ["yes", "Yes", "YES", "no", "No", "NO", "true", "True", "TRUE", "false", "False", "FALSE",
    "on", "On", "ON", "off", "Off", "OFF"]

/-- A text without a sign. -/
def unsigned : Text → Text
  | '-' :: rest => rest
  | '+' :: rest => rest
  | rest => rest

/-- Whether a text is not empty and has only characters that satisfy a test, or underscores. -/
def isDigits (p : Char → Bool) (text : Text) : Bool :=
  !text.isEmpty && text.all fun c => p c || c == '_'

/-- The pieces of a list between the places of a value. -/
def splitAt {α : Type} [DecidableEq α] (separator : α) : List α → List (List α)
  | [] => [[]]
  | c :: rest =>
    if c = separator then [] :: splitAt separator rest
    else match splitAt separator rest with
      | [] => [[c]]
      | first :: more => (c :: first) :: more

/-- Whether a text is a number below sixty of one or two digits. -/
def isSixtieth : Text → Bool
  | [c] => c.isDigit
  | [tens, ones] => '0' ≤ tens && tens ≤ '5' && ones.isDigit
  | _ => false

/-- Whether a text is a decimal number that does not start with zero. -/
def isPositive (text : Text) : Bool :=
  text.head?.any (fun c => '1' ≤ c && c ≤ '9') && isDigits Char.isDigit text

/-- Whether a text is an integer without a sign. -/
def isSize (text : Text) : Bool :=
  match text with
  | ['0'] => true
  | '0' :: 'b' :: digits => isDigits (fun c => c == '0' || c == '1') digits
  | '0' :: 'x' :: digits => isDigits isHex digits
  | '0' :: digits => isDigits (fun c => '0' ≤ c && c ≤ '7') digits
  | _ =>
    match splitAt ':' text with
    | first :: pieces => isPositive first && pieces.all isSixtieth
    | [] => false

/-- Whether a text is an integer. -/
def isInteger (text : Text) : Bool :=
  isSize (unsigned text)

/-- Whether a text is empty or a signed exponent. -/
def isExponent : Text → Bool
  | [] => true
  | [_] => false
  | mark :: sign :: digits =>
    (mark == 'e' || mark == 'E') && (sign == '+' || sign == '-') &&
      !digits.isEmpty && digits.all Char.isDigit

/-- Whether a character is a digit or an underscore. -/
def isDigitOrLine (c : Char) : Bool :=
  c.isDigit || c == '_'

/-- Whether a text has a point behind a number, which may be written in sixtieths. -/
def isPointed (text : Text) : Bool :=
  let whole := text.takeWhile (· != '.')
  match text.dropWhile (· != '.') with
  | _ :: rest =>
    whole.head?.any Char.isDigit &&
      match splitAt ':' whole with
      | [only] => only.all isDigitOrLine && isExponent (rest.dropWhile isDigitOrLine)
      | first :: pieces =>
        first.head?.any Char.isDigit && first.all isDigitOrLine && pieces.all isSixtieth &&
          rest.all isDigitOrLine
      | [] => false
  | [] => false

/-- Whether a text is a fraction. Only an infinite one may have a sign in front of its point. -/
def isFraction (text : Text) : Bool :=
  isPointed (unsigned text) || str (unsigned text) ∈ [".inf", ".Inf", ".INF"] ||
    str text ∈ [".nan", ".NaN", ".NAN"] ||
    match text with
    | '.' :: c :: rest => c.isDigit && isExponent (rest.dropWhile isDigitOrLine)
    | _ => false

/-- The tag that the text of a plain scalar tells. -/
def tag (text : Text) : Tag :=
  if text.isEmpty then .null
  else
    let text := if text.getLast? = some '\n' then text.dropLast else text
    let word := str text
    if truthTexts.contains word then .boolean
    else if isFraction text then .fraction
    else if isInteger text then .integer
    else if word = "<<" then .merge
    else if nullTexts.contains word then .null
    else if (Moment.parse? text).any Moment.isPlain then .moment
    else if word = "=" then .default
    else if ["!", "&", "*"].contains word then .other
    else .text

end PlainScalar

end JasmineConversion.Yaml
