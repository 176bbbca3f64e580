import JasmineConversion.Text.Integer

/-! # Templates of replacements

A replacement is written as a template. In it a backslash makes an escape: a letter for a control
character, digits for a character by its octal code or for a group of the matched text, or a group
in angle brackets. The patterns of this library have no groups, so that only the whole matched
text, the group zero, can be referred to. A text without a backslash stands for itself.
-/

namespace JasmineConversion

open Text

/-- What keeps a text from being a template. -/
inductive TemplateFault where
  | danglingBackslash
  | unknownEscape (letter : Char)
  | missingBracket
  | missingName
  | unterminatedName
  | unknownGroup (number : Nat)
  | unknownName (name : Text)
  | invalidName (name : Text)
  | octalTooLarge (digits : Text)
  deriving DecidableEq

/-- The wording of a fault. -/
def TemplateFault.message : TemplateFault → String
  | danglingBackslash => "bad escape (end of pattern)"
  | unknownEscape letter => "bad escape \\" ++ str [letter]
  | missingBracket => "missing <"
  | missingName => "missing group name"
  | unterminatedName => "missing >, unterminated name"
  | unknownGroup number => "invalid group reference " ++ toString number
  | unknownName name => "unknown group name " ++ shown name
  | invalidName name => "bad character in group name " ++ shown name
  | octalTooLarge digits =>
      "octal escape value \\" ++ str digits ++ " outside of range 0-0o377"

/-- A fault in a template at an index. -/
structure TemplateError where
  fault : TemplateFault
  template : Text
  index : Nat
  deriving DecidableEq

namespace TemplateError

/-- The column of an index in a text, counted from one. -/
def column (text : Text) (index : Nat) : Nat :=
  ((text.take index).reverse.takeWhile (· != '\n')).length + 1

/-- The wording of an error. A name that is not known has no place, and a line is named only in a
template of several lines. -/
def message (error : TemplateError) : String :=
  match error.fault with
  | .unknownName _ => error.fault.message
  | _ =>
    error.fault.message ++ " at position " ++ toString error.index ++
      if error.template.contains '\n' then
        " (line " ++ toString ((error.template.take error.index).count '\n' + 1) ++ ", column " ++
          toString (column error.template error.index) ++ ")"
      else ""

end TemplateError

/-- A part of a template: a text, or the matched text. -/
inductive TemplatePart where
  | text (value : Text)
  | matched
  deriving DecidableEq

/-- The template of a replacement. -/
abbrev Template := List TemplatePart

namespace Template

/-- What takes the place of a matched text. -/
def fill (template : Template) (found : Text) : Text :=
  template.flatMap fun
    | .text value => value
    | .matched => found

/-- A sign of a template: a character, a character behind a backslash, or a backslash at the end. -/
inductive Sign where
  | plain (c : Char)
  | escaped (c : Char)
  | dangling
  deriving DecidableEq

namespace Sign

/-- The signs of a text. -/
def all : Text → List Sign
  | [] => []
  | ['\\'] => [dangling]
  | '\\' :: c :: rest => escaped c :: all rest
  | c :: rest => plain c :: all rest

/-- A sign as it is written. -/
def text : Sign → Text
  | plain c => [c]
  | escaped c => ['\\', c]
  | dangling => ['\\']

end Sign

/-- Where the reading of a template stands. -/
structure Cursor where
  signs : List Sign
  index : Nat := 0

/-- A reading of a template. The whole of it is known for errors. -/
abbrev Reading := ReaderT Text (StateT Cursor (Except TemplateError))

namespace Reading

/-- Fails at a distance before the next sign. -/
def fail {α : Type} (fault : TemplateFault) (back : Nat) : Reading α := do
  throw ⟨fault, ← read, (← get).index - back⟩

/-- The next sign must not be a backslash that nothing follows. -/
def checkNext : Reading Unit := do
  if (← get).signs.head? = some .dangling then fail .danglingBackslash 0

/-- Moves over the next sign, if there is one. -/
def next? : Reading (Option Sign) := do
  match (← get).signs with
  | [] => return none
  | sign :: rest => do
    modify fun cursor => ⟨rest, cursor.index + sign.text.length⟩
    checkNext
    return some sign

/-- Moves over a character that satisfies a test, if it is next. -/
def accept? (p : Char → Bool) : Reading (Option Char) := do
  match (← get).signs.head? with
  | some (.plain c) =>
    if p c then do
      let _ ← next?
      return some c
    else return none
  | _ => return none

/-- Reads the rest of a group's name, up to the closing bracket. -/
def nameFrom (before : Text) : (bound : Nat) → Reading Text
  | 0 => fail .missingName 0
  | bound + 1 => do
    match ← next? with
    | none =>
      if before.isEmpty then fail .missingName 0 else fail .unterminatedName before.length
    | some (.plain '>') => if before.isEmpty then fail .missingName 1 else return before
    | some sign => nameFrom (before ++ sign.text) bound

/-- Whether a character is an octal digit. -/
def isOctal (c : Char) : Bool :=
  '0' ≤ c && c ≤ '7'

/-- Whether a text is a name: a letter or an underscore, and letters and digits behind it. -/
def isName (name : Text) : Bool :=
  name.head?.any (fun c => isWord c && !isDigit c) && name.all isWord

/-- The number that a name denotes. -/
def number? (name : Text) : Option Nat :=
  match Integer.read 10 (name.map Char.toNat) with
  | .ok number => if number < 0 then none else some number.toNat
  | .error _ => none

/-- The part for a group that ends at a distance before the next sign. -/
def group (number back : Nat) : Reading TemplatePart :=
  if number = 0 then return .matched else fail (.unknownGroup number) back

/-- Reads a group in angle brackets. -/
def namedGroup : Reading TemplatePart := do
  match ← accept? (· == '<') with
  | none => fail .missingBracket 0
  | some _ =>
    let name ← nameFrom [] ((← get).signs.length + 1)
    if isName name then fail (.unknownName name) 0
    else
      match number? name with
      | some number => group number (name.length + 1)
      | none => fail (.invalidName name) (name.length + 1)

/-- Reads what follows a backslash and a zero: at most two octal digits. -/
def zeroEscape : Reading TemplatePart := do
  match ← accept? isOctal with
  | none => return .text ['\x00']
  | some first =>
    let second ← accept? isOctal
    return .text [Char.ofNat (digitsNumber 8 (first :: second.toList))]

/-- Reads what follows a backslash and another digit: three octal digits are a character, and one
or two digits a group. -/
def digitEscape (first : Char) : Reading TemplatePart := do
  match ← accept? Char.isDigit with
  | none => group (digitValue first) 1
  | some second =>
    let third ← if isOctal first && isOctal second then accept? isOctal else pure none
    match third with
    | none => group (digitsNumber 10 [first, second]) 2
    | some third =>
      let digits := [first, second, third]
      let code := digitsNumber 8 digits
      if code > 255 then fail (.octalTooLarge digits) 4 else return .text [Char.ofNat code]

/-- The control characters that letters behind a backslash stand for. -/
def controls : List (Char × Char) :=
  [('a', '\x07'), ('b', '\x08'), ('f', '\x0C'), ('n', '\n'), ('r', '\r'), ('t', '\t'),
    ('v', '\x0B'), ('\\', '\\')]

/-- Reads what follows a backslash. -/
def escape (c : Char) : Reading TemplatePart := do
  if c = 'g' then namedGroup
  else if c = '0' then zeroEscape
  else if c.isDigit then digitEscape c
  else
    match controls.find? (·.1 == c) with
    | some entry => return .text [entry.2]
    | none => if c.isAlpha then fail (.unknownEscape c) 2 else return .text ['\\', c]

/-- Reads the parts of a template. -/
def parts : (bound : Nat) → Reading Template
  | 0 => return []
  | bound + 1 => do
    match ← next? with
    | none => return []
    | some (.escaped c) => return (← escape c) :: (← parts bound)
    | some sign => return .text sign.text :: (← parts bound)

end Reading

/-- Reads a template. -/
def parse (text : Text) : Except TemplateError Template :=
  if text.contains '\\' then
    let signs := Sign.all text
    let reading : Reading Template := do
      Reading.checkNext
      Reading.parts (signs.length + 1)
    (reading.run text).run' { signs }
  else .ok [.text text]

/-- A text without a backslash is a template for itself. -/
theorem parse_of_no_backslash {text : Text} (plain : '\\' ∉ text) :
    parse text = .ok [.text text] := by
  simp [parse, plain]

/-- A template of one text gives that text, whatever was matched. -/
@[simp] theorem fill_text (text found : Text) : fill [.text text] found = text := by
  simp [fill]

end Template

end JasmineConversion
