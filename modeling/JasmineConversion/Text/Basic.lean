import JasmineConversion.Text.Blank

/-! # Text as a list of characters

Text is kept as its list of code points, so that every position, width and offset counts code
points. A line ends only at a line feed.
-/

namespace JasmineConversion

/-- Text as the list of its code points. -/
abbrev Text := List Char

namespace Text

/-- A property of all characters of a text is decided on the text, not on all characters there are. -/
instance (priority := high) decidableAll {p : Char → Prop} [DecidablePred p] (text : List Char) :
    Decidable (∀ c ∈ text, p c) :=
  List.decidableBAll p text

/-- The lines of a text, the line feeds between them left out. There is always at least one. -/
def lines : Text → List Text
  | [] => [[]]
  | c :: rest =>
    if c = '\n' then [] :: lines rest
    else match lines rest with
      | [] => [[c]]
      | first :: more => (c :: first) :: more

/-- Texts joined with a separator between neighbours. -/
def join (separator : Text) : List Text → Text
  | [] => []
  | [only] => only
  | first :: rest => first ++ separator ++ join separator rest

/-- Lines put back together with a line feed between neighbours. -/
def unlines (texts : List Text) : Text :=
  join ['\n'] texts

/-- The text that follows `lead`, if the text starts with it. -/
def after? : (lead text : Text) → Option Text
  | [], text => some text
  | _ :: _, [] => none
  | l :: lead, c :: text => if l = c then after? lead text else none

/-- Whether a text starts with `lead`. -/
def startsWith (lead text : Text) : Bool :=
  (after? lead text).isSome

/-- Whether a text ends with `tail`. -/
def endsWith (tail text : Text) : Bool :=
  startsWith tail.reverse text.reverse

/-- Whether `part` occurs somewhere in a text. -/
def occursIn (part : Text) : Text → Bool
  | [] => part.isEmpty
  | c :: rest => startsWith part (c :: rest) || occursIn part rest

/-- A text without the blank characters at its start. -/
def trimStart (text : Text) : Text :=
  text.dropWhile isBlank

/-- A text without the trailing characters that satisfy `p`. -/
def dropEndWhile (p : Char → Bool) (text : Text) : Text :=
  (text.reverse.dropWhile p).reverse

/-- A text without the blank characters at its end. -/
def trimEnd (text : Text) : Text :=
  dropEndWhile isBlank text

/-- A text without the blank characters at both ends. -/
def trim (text : Text) : Text :=
  trimEnd (trimStart text)

/-- Whether a text holds blank characters only. -/
def isBlankText (text : Text) : Bool :=
  text.all isBlank

/-- The text at the indexes from `start` up to `stop`. -/
def slice (text : Text) (start stop : Nat) : Text :=
  (text.take stop).drop start

/-- A text repeated `count` times. -/
def repeated (count : Nat) (text : Text) : Text :=
  (List.replicate count text).flatten

/-- The order of texts by code points. -/
def before : (first second : Text) → Bool
  | _, [] => false
  | [], _ :: _ => true
  | a :: first, b :: second => a < b || (a == b && before first second)

/-- A text as a string. -/
def str (text : Text) : String :=
  String.ofList text

end Text

end JasmineConversion
