import JasmineConversion.Host.Yaml.Flaw
import JasmineConversion.Host.Yaml.Stream

/-! # Characters of a YAML document

A document is read from left to right with the line and the column of the next character. A
reading fails where the document is not well-formed, and where it needs a character that cannot be
read.
-/

namespace JasmineConversion.Yaml

open Text

/-- Whether a character may stand in a document. -/
def isAllowed (c : Char) : Bool :=
  let n := c.toNat
  n == 0x9 || n == 0xA || n == 0xD || (0x20 ≤ n && n ≤ 0x7E) || n == 0x85 ||
    (0xA0 ≤ n && n ≤ 0xFFFD) || 0x10000 ≤ n

/-- Whether a character ends a line. -/
def isBreak (c : Char) : Bool :=
  c == '\r' || c == '\n' || c == '\x85' || c == '\u2028' || c == '\u2029'

/-- Whether a line or the document ends here. -/
def atLineEnd (next : Option Char) : Bool :=
  next.all isBreak

/-- Whether a space, a line end or the end of the document is here. -/
def atGap (next : Option Char) : Bool :=
  next.all fun c => c == ' ' || isBreak c

/-- Whether a space, a tab, a line end or the end of the document is here. -/
def atBlank (next : Option Char) : Bool :=
  next.all fun c => c == ' ' || c == '\t' || isBreak c

/-- Whether a character may stand in the name of an anchor or a directive. -/
def isName (c : Char) : Bool :=
  c.isAlphanum || c == '-' || c == '_'

/-- Whether a character is a hexadecimal digit. -/
def isHex (c : Char) : Bool :=
  digitValue c < 16

/-- Where the reading of a document stands: the characters left that can be read, the flaw behind
them, if there is one, and the place of the first. -/
structure Position where
  rest : Text
  behind : Option Flaw := none
  index : Nat := 0
  line : Nat := 0
  column : Nat := 0

namespace Position

/-- The characters of a document up to the first piece that cannot be read or has a character that
must not stand there, and the flaw of that piece. -/
def readable : List Text → Option EncodingError → Text × Option Flaw
  | [], fault => ([], fault.map .encoding)
  | piece :: pieces, fault =>
    if piece.all isAllowed then
      let (text, flaw) := readable pieces fault
      (piece ++ text, flaw)
    else ([], some .malformed)

/-- The start of a document. -/
def start (pieces : Pieces) : Position :=
  let (rest, behind) := readable pieces.texts pieces.fault
  { rest, behind }

/-- The position behind one more character. -/
def advance (position : Position) : Position :=
  match position.rest with
  | [] => position
  | c :: rest =>
    let ends := c == '\n' || c == '\x85' || c == '\u2028' || c == '\u2029' ||
      (c == '\r' && rest.head? != some '\n')
    { rest
      behind := position.behind
      index := position.index + 1
      line := if ends then position.line + 1 else position.line
      column := if ends then 0
        else if c == '\uFEFF' then position.column else position.column + 1 }

/-- The position behind some more characters. -/
def advanceBy : Nat → Position → Position
  | 0, position => position
  | count + 1, position => advanceBy count position.advance

end Position

/-- A reading of a part of a document. -/
abbrev Read := StateT Position (Except Flaw)

namespace Read

/-- The document is not well-formed here. -/
def malformed {α : Type} : Read α :=
  throw .malformed

/-- Goes on only if a number of characters can be read, or the document ends within them. -/
def ensure (count : Nat) : Read Unit := do
  let position ← get
  match position.behind with
  | none => pure ()
  | some flaw => if (position.rest.drop (count - 1)).isEmpty then throw flaw

/-- The character at a distance. -/
def peekAt (distance : Nat) : Read (Option Char) := do
  ensure (distance + 1)
  return (← get).rest[distance]?

/-- The next character. -/
def peek : Read (Option Char) :=
  peekAt 0

/-- The column of the next character. -/
def column : Read Nat :=
  return (← get).column

/-- Moves over characters. The one behind them is read as well. -/
def skip (count : Nat) : Read Unit := do
  modify (Position.advanceBy count)
  ensure 1

/-- Reads the characters that satisfy a test. -/
def takeWhile (p : Char → Bool) : Read Text := do
  let taken := (← get).rest.takeWhile p
  skip taken.length
  return taken

/-- Moves over the characters that satisfy a test. -/
def skipWhile (p : Char → Bool) : Read Unit := do
  let _ ← takeWhile p

/-- Goes on only if a condition holds. -/
def require (condition : Bool) : Read Unit :=
  if condition then pure () else malformed

/-- Repeats a step on a value for as long as it gives a new value to go on with. Each step moves
over a character or is the last, so the length of the document bounds their number. -/
def repeatFrom {α : Type} (step : α → Read (α × Bool)) : (bound : Nat) → α → Read α
  | 0, _ => malformed
  | bound + 1, value => do
    let (value, more) ← step value
    if more then repeatFrom step bound value else return value

/-- Repeats a step for as long as it asks to go on. -/
def repeatWith {α : Type} (value : α) (step : α → Read (α × Bool)) : Read α := do
  repeatFrom step ((← get).rest.length + 2) value

/-- Reads the end of a line. The usual line ends count as a line feed. -/
def lineBreak : Read Text := do
  match ← peek with
  | none => return []
  | some c =>
    if c == '\r' then do
      if (← peekAt 1) == some '\n' then skip 2 else skip 1
      return ['\n']
    else if c == '\n' || c == '\x85' then do
      skip 1
      return ['\n']
    else if isBreak c then do
      skip 1
      return [c]
    else return []

/-- Whether one of some marks of three characters is here, with a blank behind it. -/
def atMark (marks : List String) : Read Bool := do
  ensure 3
  let rest := (← get).rest
  if marks.any fun mark => startsWith mark.toList rest then return atBlank (← peekAt 3)
  else return false

/-- Whether a mark that begins or ends a document is here. -/
def atDocumentMark : Read Bool :=
  atMark ["---", "..."]

/-- Whether a mark of three equal characters is at the start of a line here. -/
def atLineMark (c : Char) : Read Bool := do
  if (← column) == 0 && (← peek) == some c then atMark [String.ofList [c, c, c]]
  else return false

/-- Whether an indicator is here, with a blank behind it. -/
def atIndicator (c : Char) : Read Bool := do
  if (← peek) == some c then return atBlank (← peekAt 1) else return false

/-- The number that some hexadecimal digits denote, which have to be here. -/
def peekHex (width : Nat) : Read Nat := do
  let digits := (← get).rest.take width
  require (digits.all isHex)
  ensure width
  require (digits.length == width)
  return digitsNumber 16 digits

/-- Moves over spaces and a comment to the end of the line and over it. Nothing else may be
there. -/
def endOfLine : Read Unit := do
  skipWhile (· == ' ')
  if (← peek) == some '#' then skipWhile fun c => !isBreak c
  require (atLineEnd (← peek))
  let _ ← lineBreak

end Read

end JasmineConversion.Yaml
