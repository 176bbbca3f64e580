import JasmineConversion.Text.Content
import JasmineConversion.Host.Yaml.Character

/-! # Scalars of a YAML document

A scalar is written plainly, between quotes, or as a block of lines. Line ends inside it are
folded to spaces, except in a literal block.
-/

namespace JasmineConversion.Yaml

open Text

namespace Scalar

open Read

/-- The text that folded line ends stand for: the first one is a space unless others follow. -/
def folded (first : Text) (others : Text) : Text :=
  (if first != ['\n'] then first else if others.isEmpty then [' '] else []) ++ others

/-! ## Quoted scalars -/

/-- The characters that an escape of one letter stands for. -/
def escapes : List (Char × Char) :=
  [('0', '\x00'), ('a', '\x07'), ('b', '\x08'), ('t', '\t'), ('\t', '\t'), ('n', '\n'),
    ('v', '\x0B'), ('f', '\x0C'), ('r', '\r'), ('e', '\x1B'), (' ', ' '), ('"', '"'),
    ('\\', '\\'), ('/', '/'), ('N', '\x85'), ('_', '\xA0'), ('L', '\u2028'), ('P', '\u2029')]

/-- How many hexadecimal digits follow the letter of an escape. -/
def escapeDigits : List (Char × Nat) :=
  [('x', 2), ('u', 4), ('U', 8)]

/-- Reads the lines after a line end inside quotes: the line ends, without the indents. -/
def quotedBreaks : Read Text :=
  repeatWith [] fun breaks => do
    require (!(← atDocumentMark))
    skipWhile fun c => c == ' ' || c == '\t'
    let next ← lineBreak
    return (breaks ++ next, !next.isEmpty)

/-- Reads the code of a character of some hexadecimal digits. A half of a surrogate pair has a code
too. -/
def codeOf (width : Nat) : Read Nat := do
  let code ← peekHex width
  if code > 0x7FFFFFFF then throw (.value .codeTooLong)
  else if code > 0x10FFFF then throw (.value .codeOutOfRange)
  else
    skip width
    return code

/-- Reads what an escape stands for, behind its backslash. -/
def escape : Read (List Nat) := do
  match ← peek with
  | none => malformed
  | some c =>
    if let some entry := escapes.find? (·.1 == c) then
      skip 1
      return [entry.2.toNat]
    else if let some entry := escapeDigits.find? (·.1 == c) then
      skip 1
      return [← codeOf entry.2]
    else
      require (isBreak c)
      let _ ← lineBreak
      return (← quotedBreaks).map Char.toNat

/-- Whether a character inside quotes stands for itself. -/
def isOrdinary (c : Char) : Bool :=
  !(c == '\'' || c == '"' || c == '\\' || c == ' ' || c == '\t' || isBreak c)

/-- Reads a piece inside quotes, and tells whether there was one. -/
def quotedPiece (double : Bool) : Read (List Nat × Bool) := do
  let plain (text : Text) := (text.map Char.toNat, true)
  match ← peek with
  | none => malformed
  | some '\'' =>
    if double then
      skip 1
      return plain ['\'']
    else if (← peekAt 1) == some '\'' then
      skip 2
      return plain ['\'']
    else return ([], false)
  | some '"' =>
    if double then return ([], false)
    else
      skip 1
      return plain ['"']
  | some '\\' =>
    skip 1
    if double then return (← escape, true) else return plain ['\\']
  | some c =>
    if isOrdinary c then return plain (← takeWhile isOrdinary)
    else
      let blanks ← takeWhile fun c => c == ' ' || c == '\t'
      let first ← lineBreak
      if first.isEmpty then return plain blanks
      else return plain (folded first (← quotedBreaks))

/-- Reads a scalar between quotes. -/
def quoted (double : Bool) : Read Content := do
  skip 1
  let codes ← repeatWith [] fun codes => do
    let (piece, more) ← quotedPiece double
    return (codes ++ piece, more)
  skip 1
  return .ofCodes codes

/-! ## Blocks of lines -/

/-- What is done with the line ends at the end of a block. -/
inductive Chomping where
  | clip
  | strip
  | keep
  deriving DecidableEq

/-- Reads how a block ends, if it is written. -/
def chomping? : Read (Option Chomping) := do
  match ← peek with
  | some '+' =>
    skip 1
    return some .keep
  | some '-' =>
    skip 1
    return some .strip
  | _ => return none

/-- Reads by how many columns a block is indented, if it is written. -/
def increment? : Read (Option Nat) := do
  match ← peek with
  | some c =>
    if c.isDigit then
      require (c != '0')
      skip 1
      return some (c.toNat - '0'.toNat)
    else return none
  | none => return none

/-- Reads the head of a block behind its first character, in any order. -/
def blockHead : Read (Chomping × Option Nat) := do
  let first ← chomping?
  let increment ← increment?
  let last ← if first.isNone && increment.isSome then chomping? else pure none
  require (atGap (← peek))
  endOfLine
  return ((first.or last).getD .clip, increment)

/-- Reads the empty lines before a block: their line ends, and the widest indent among them and
the first line. -/
def blockIndent : Read (Text × Nat) :=
  repeatWith ([], 0) fun (breaks, widest) => do
    match ← peek with
    | some ' ' =>
      skip 1
      return ((breaks, max widest (← column)), true)
    | _ =>
      let next ← lineBreak
      return ((breaks ++ next, widest), !next.isEmpty)

/-- Moves over an indent that is no wider than a block's. -/
def skipIndent (indent : Nat) : Read Unit := do
  let spaces := (← get).rest.takeWhile (· == ' ')
  skip (min spaces.length (indent - (← column)))

/-- Reads the empty lines inside a block: their line ends. -/
def blockBreaks (indent : Nat) : Read Text := do
  skipIndent indent
  repeatWith [] fun breaks => do
    let next ← lineBreak
    if next.isEmpty then return (breaks, false)
    else
      skipIndent indent
      return (breaks ++ next, true)

/-- Whether one more line of a block starts here. -/
def atBlockLine (indent : Nat) : Read Bool := do
  return (← column) == indent && (← peek).isSome

/-- Whether a line does not start with white space. -/
def atText : Read Bool := do
  return (← peek).all fun c => c != ' ' && c != '\t'

/-- What was read of a block: its text, the line end of its last line and the empty lines behind
that. -/
structure Block where
  text : Text := []
  lineEnd : Text := []
  breaks : Text := []

/-- Reads a line of a block and the empty lines behind it. -/
def blockLine (fold : Bool) (indent : Nat) (block : Block) : Read (Block × Bool) := do
  let fromText ← atText
  let line ← takeWhile fun c => !isBreak c
  let lineEnd ← lineBreak
  let breaks ← blockBreaks indent
  let text := block.text ++ block.breaks ++ line
  if ← atBlockLine indent then
    let joint :=
      if fold && lineEnd == ['\n'] && fromText && (← atText) then
        if breaks.isEmpty then [' '] else []
      else lineEnd
    return (⟨text ++ joint, lineEnd, breaks⟩, true)
  else return (⟨text, lineEnd, breaks⟩, false)

/-- Reads a block of lines in a collection with the given indent. -/
def block (fold : Bool) (parent : Int) : Read Text := do
  skip 1
  let (chomping, increment) ← blockHead
  let least := (max (parent + 1) 1).toNat
  let (indent, breaks) ← match increment with
    | none => do
      let (breaks, widest) ← blockIndent
      pure (max least widest, breaks)
    | some increment => do
      let indent := least + increment - 1
      pure (indent, ← blockBreaks indent)
  let start : Block := { breaks }
  let found ←
    if ← atBlockLine indent then repeatWith start (blockLine fold indent) else pure start
  return found.text ++ (if chomping = .strip then [] else found.lineEnd) ++
    if chomping = .keep then found.breaks else []

/-! ## Plain scalars -/

/-- Whether a plain scalar goes on with a character that another one follows. -/
def plainGoesOn (inFlow : Bool) (c : Char) (next : Option Char) : Bool :=
  !(c == ' ' || c == '\t' || isBreak c) &&
    !(c == ':' && (atBlank next || (inFlow && next.any ",[]\x7b\x7d".toList.contains))) &&
    !(inFlow && ",?[]\x7b\x7d".toList.contains c)

/-- The length of the part of a plain scalar at the front of a text. -/
def plainLength (inFlow : Bool) : Text → Nat
  | [] => 0
  | c :: rest => if plainGoesOn inFlow c rest.head? then plainLength inFlow rest + 1 else 0

/-- Reads the lines after a line end inside a plain scalar. Nothing is given where a document
ends. -/
def plainBreaks : Read (Option Text) := do
  if ← atDocumentMark then return none
  repeatWith (some []) fun breaks => do
    skipWhile (· == ' ')
    let next ← lineBreak
    if next.isEmpty then return (breaks, false)
    else if ← atDocumentMark then return (none, false)
    else return (breaks.map (· ++ next), true)

/-- Reads the white space inside a plain scalar, and tells whether a line ended in it. -/
def plainSpaces : Read (Text × Bool) := do
  let blanks ← takeWhile (· == ' ')
  let first ← lineBreak
  if first.isEmpty then return (blanks, false)
  else
    match ← plainBreaks with
    | none => return ([], true)
    | some others => return (folded first others, true)

/-- What was read of a plain scalar: its text, the white space behind it, and whether a line has
ended since its last part. -/
structure Plain where
  text : Text := []
  spaces : Text := []
  lineEnded : Bool := false

/-- Reads the part of a plain scalar that is here. A colon that ends it is known by the character
behind it. -/
def plainWord (inFlow : Bool) : Read Text := do
  let length := plainLength inFlow (← get).rest
  if (← peekAt length) == some ':' then ensure (length + 2)
  let word := (← get).rest.take length
  skip length
  return word

/-- Reads a part of a plain scalar and the white space behind it. -/
def plainPart (inFlow : Bool) (indent : Int) (plain : Plain) : Read (Plain × Bool) := do
  if (← peek) == some '#' then return (plain, false)
  let part ← plainWord inFlow
  if part.isEmpty then return (plain, false)
  else
    let (spaces, lineEnded) ← plainSpaces
    let found : Plain := ⟨plain.text ++ plain.spaces ++ part, spaces, lineEnded⟩
    let outside := !inFlow && (← column) < indent
    return (found, !spaces.isEmpty && (← peek) != some '#' && !outside)

/-- Reads a plain scalar in a collection with the given indent, and tells whether a line ended
behind it. -/
def plain (inFlow : Bool) (parent : Int) : Read (Text × Bool) := do
  let found ← repeatWith {} (plainPart inFlow (parent + 1))
  return (found.text, found.lineEnded)

end Scalar

end JasmineConversion.Yaml
