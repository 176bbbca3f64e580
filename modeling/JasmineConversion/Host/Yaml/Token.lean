import JasmineConversion.Files.Encoding
import JasmineConversion.Host.Yaml.Scalar

/-! # Tokens of a YAML document

The indentation of a document becomes tokens that begin and end its blocks. A key is known as
such only at the colon behind it, so the tokens for it are put in later, where it began.
-/

namespace JasmineConversion.Yaml

open Text

/-- A token of a document. The version of the format is given as its first number, and a tag by
its handle and the rest of it. -/
inductive Token where
  | version (major : Nat)
  | handle (name meaning : Text)
  | directive
  | documentStart
  | documentEnd
  | sequenceStart
  | mappingStart
  | blockEnd
  | flowSequenceStart
  | flowMappingStart
  | flowSequenceEnd
  | flowMappingEnd
  | flowEntry
  | blockEntry
  | key
  | value
  | alias (name : Text)
  | anchor (name : Text)
  | tag (handle : Option Text) (suffix : Text)
  | scalar (content : Content) (plain : Bool)
  | streamEnd
  deriving DecidableEq

/-- A place where a key may have begun. -/
structure KeyStart where
  token : Nat
  required : Bool
  index : Nat
  line : Nat
  column : Nat

/-- Whether a key that began there cannot be completed any more: a key is short and on one line. -/
def KeyStart.isStale (key : KeyStart) (position : Position) : Bool :=
  key.line != position.line || position.index - key.index > 1024

/-- Where the scanning of a document stands. The place where a key may have begun is kept for
each level of flow collections, the innermost first. -/
structure Scanner where
  position : Position
  tokens : List Token := []
  indent : Int := -1
  indents : List Int := []
  keyAllowed : Bool := true
  keys : List (Option KeyStart) := [none]
  finished : Bool := false

/-- A step of the scanning of a document. -/
abbrev Scan := StateT Scanner (Except Flaw)

namespace Scan

/-- Runs a reading at the position of the scanner. -/
def read {α : Type} (reader : Read α) : Scan α := do
  let scanner ← get
  match reader scanner.position with
  | .ok (value, position) => do
    set { scanner with position }
    return value
  | .error flaw => throw flaw

/-- Goes on only if a condition holds. -/
def require (condition : Bool) : Scan Unit :=
  if condition then pure () else throw .malformed

/-- Whether the scanner is inside a flow collection. -/
def inFlow : Scan Bool :=
  return (← get).keys.length > 1

/-- Adds a token. -/
def emit (token : Token) : Scan Unit :=
  modify fun scanner => { scanner with tokens := scanner.tokens ++ [token] }

/-- Allows or forbids that a key begins here. -/
def allowKey (allowed : Bool) : Scan Unit :=
  modify fun scanner => { scanner with keyAllowed := allowed }

/-- Sets the place where a key of the innermost level may have begun. -/
def setKey (key : Option KeyStart) : Scan Unit :=
  modify fun scanner => { scanner with keys := key :: scanner.keys.drop 1 }

/-- The place where a key of the innermost level may have begun. -/
def key? : Scan (Option KeyStart) :=
  return (← get).keys.head?.join

/-- Gives up the key that may have begun. It must not be one that has to be there. -/
def dropKey : Scan Unit := do
  require (!(← key?).any (·.required))
  setKey none

/-- Notes that a key may begin here. -/
def saveKey : Scan Unit := do
  let scanner ← get
  let required := !(← inFlow) && scanner.indent == scanner.position.column
  if scanner.keyAllowed then
    dropKey
    setKey (some ⟨scanner.tokens.length, required, scanner.position.index, scanner.position.line,
      scanner.position.column⟩)

/-- Gives up the keys that cannot be completed any more. -/
def dropStaleKeys : Scan Unit := do
  let scanner ← get
  let stale (key : KeyStart) : Bool := key.isStale scanner.position
  require (!scanner.keys.any fun key => key.any fun key => stale key && key.required)
  set { scanner with keys := scanner.keys.map (Option.filter fun key => !stale key) }

/-- Ends the blocks that are indented further than a column. -/
def unwindFrom (column : Int) : List Int → Scan Unit
  | [] => pure ()
  | outer :: indents => do
    if (← get).indent > column then
      modify fun scanner => { scanner with indent := outer, indents }
      emit .blockEnd
      unwindFrom column indents

/-- Ends the blocks that are indented further than a column, outside flow collections. -/
def unwind (column : Int) : Scan Unit := do
  if !(← inFlow) then unwindFrom column (← get).indents

/-- Begins a block at a column if it is indented further than the last one. -/
def indentTo (column : Nat) : Scan Bool := do
  let scanner ← get
  if scanner.indent < column then
    set { scanner with indent := column, indents := scanner.indent :: scanner.indents }
    return true
  else return false

/-- Puts a token in front of the one with a number. -/
def insert (number : Nat) (token : Token) : Scan Unit :=
  modify fun scanner =>
    { scanner with tokens := scanner.tokens.take number ++ [token] ++ scanner.tokens.drop number }

/-- Moves over white space, comments and line ends to the next token. -/
def toNextToken : Scan Unit := do
  let flow ← inFlow
  let start := (← get).position.index == 0
  let newLine ← read do
    if start && (← Read.peek) == some '\uFEFF' then Read.skip 1
    Read.repeatWith false fun newLine => do
      Read.skipWhile (· == ' ')
      if (← Read.peek) == some '#' then Read.skipWhile fun c => !isBreak c
      let ended := !(← Read.lineBreak).isEmpty
      return (newLine || ended, ended)
  if newLine && !flow then allowKey true

/-! ## Directives, tags and anchors -/

/-- Reads a number. -/
def number : Read Nat := do
  let digits ← Read.takeWhile Char.isDigit
  Read.require !digits.isEmpty
  match Integer.read 10 (digits.map Char.toNat) with
  | .ok value => return value.toNat
  | .error fault => throw (.value (.integer fault))

/-- Whether a character may stand in a tag as it is. -/
def isTagChar (c : Char) : Bool :=
  c.isAlphanum || "-;/?:@&=+$,_.!~*'()[]".toList.contains c

/-- Reads an escaped byte: a percent sign and two hexadecimal digits. -/
def tagByte : Read UInt8 := do
  Read.skip 1
  let code ← Read.peekHex 2
  Read.skip 2
  return UInt8.ofNat code

/-- Reads escaped bytes, which give characters in UTF-8. -/
def tagBytes : Read Text := do
  let bytes ← Read.repeatWith [] fun bytes => do
    let byte ← tagByte
    return (bytes ++ [byte], (← Read.peek) == some '%')
  match Encoding.decode bytes with
  | .ok text => return text
  | .error _ => Read.malformed

/-- Reads the rest of a tag. -/
def tagSuffix : Read Text := do
  let start := (← get).index
  let text ← Read.repeatWith [] fun text => do
    let plain ← Read.takeWhile isTagChar
    if (← Read.peek) == some '%' then return (text ++ plain ++ (← tagBytes), true)
    else return (text ++ plain, false)
  Read.require ((← get).index != start)
  return text

/-- Reads the handle of a tag: a name between exclamation marks, or one of these. -/
def tagHandle : Read Text := do
  Read.require ((← Read.peek) == some '!')
  Read.skip 1
  let name ← Read.takeWhile isName
  if (← Read.peek) == some '!' then
    Read.skip 1
    return ['!'] ++ name ++ ['!']
  else
    Read.require (name.isEmpty && (← Read.peek) == some ' ')
    return ['!']

/-- Reads a directive. -/
def directive : Read Token := do
  Read.skip 1
  let name ← Read.takeWhile isName
  Read.require (!name.isEmpty && atGap (← Read.peek))
  let token ←
    if name = "YAML".toList then do
      Read.skipWhile (· == ' ')
      let major ← number
      Read.require ((← Read.peek) == some '.')
      Read.skip 1
      let _ ← number
      Read.require (atGap (← Read.peek))
      pure (.version major)
    else if name = "TAG".toList then do
      Read.skipWhile (· == ' ')
      let handle ← tagHandle
      Read.require ((← Read.peek) == some ' ')
      Read.skipWhile (· == ' ')
      let meaning ← tagSuffix
      Read.require (atGap (← Read.peek))
      pure (.handle handle meaning)
    else do
      Read.skipWhile fun c => !isBreak c
      pure .directive
  Read.endOfLine
  return token

/-- Whether the tag that begins here has a handle of its own: another exclamation mark follows
before the next gap. -/
def hasHandle : Read Bool := do
  let word := ((← get).rest.drop 1).takeWhile fun c => !(c == ' ' || isBreak c)
  if word.contains '!' then return true
  else
    Read.ensure (word.length + 2)
    return false

/-- Reads a tag. -/
def tag : Read Token := do
  let token ← match ← Read.peekAt 1 with
    | some '<' => do
      Read.skip 2
      let suffix ← tagSuffix
      Read.require ((← Read.peek) == some '>')
      Read.skip 1
      pure (Token.tag none suffix)
    | next =>
      if atBlank next then do
        Read.skip 1
        pure (Token.tag none ['!'])
      else if ← hasHandle then do
        let handle ← tagHandle
        pure (Token.tag (some handle) (← tagSuffix))
      else do
        Read.skip 1
        pure (Token.tag (some ['!']) (← tagSuffix))
  Read.require (atGap (← Read.peek))
  return token

/-- Reads the name of an anchor or an alias. -/
def anchorName : Read Text := do
  Read.skip 1
  let name ← Read.takeWhile isName
  Read.require !name.isEmpty
  let next ← Read.peek
  Read.require (atBlank next || next.any "?:,]\x7d%@\x60".toList.contains)
  return name

/-! ## Tokens -/

/-- Ends the document: its blocks are ended and no key may begin. -/
def endBlocks : Scan Unit := do
  unwind (-1)
  dropKey
  allowKey false

/-- Scans a mark that begins or ends a document. -/
def documentMark (token : Token) : Scan Unit := do
  endBlocks
  read (Read.skip 3)
  emit token

/-- Scans the beginning of a flow collection. -/
def flowStart (token : Token) : Scan Unit := do
  saveKey
  modify fun scanner => { scanner with keys := none :: scanner.keys }
  allowKey true
  read (Read.skip 1)
  emit token

/-- Scans the end of a flow collection, which has to be inside one. -/
def flowEnd (token : Token) : Scan Unit := do
  dropKey
  read (Read.skip 1)
  require (← inFlow)
  modify fun scanner => { scanner with keys := scanner.keys.drop 1 }
  allowKey false
  emit token

/-- Scans the comma between the entries of a flow collection. -/
def flowEntry : Scan Unit := do
  allowKey true
  dropKey
  read (Read.skip 1)
  emit .flowEntry

/-- Begins a block at the column of an indicator. One has to be allowed here. -/
def beginBlock (token : Token) : Scan Unit := do
  if !(← inFlow) then
    require (← get).keyAllowed
    if ← indentTo (← get).position.column then emit token

/-- Scans the indicator of a sequence's entry. -/
def blockEntry : Scan Unit := do
  beginBlock .sequenceStart
  allowKey true
  dropKey
  read (Read.skip 1)
  emit .blockEntry

/-- Scans the indicator of a key. -/
def explicitKey : Scan Unit := do
  beginBlock .mappingStart
  allowKey !(← inFlow)
  dropKey
  read (Read.skip 1)
  emit .key

/-- Scans the indicator of a value. What may have been a key is one. -/
def keyValue : Scan Unit := do
  match ← key? with
  | some start => do
    setKey none
    insert start.token .key
    if !(← inFlow) then
      if ← indentTo start.column then insert start.token .mappingStart
    allowKey false
  | none => do
    beginBlock .mappingStart
    allowKey !(← inFlow)
    dropKey
  read (Read.skip 1)
  emit .value

/-- Scans a token that may be a key or a part of one. -/
def keyPart (reader : Read Token) : Scan Unit := do
  saveKey
  allowKey false
  emit (← read reader)

/-- Scans a block of lines. -/
def blockScalar (fold : Bool) : Scan Unit := do
  allowKey true
  dropKey
  let indent := (← get).indent
  emit (.scalar (.text (← read (Scalar.block fold indent))) false)

/-- Scans a plain scalar. A key may begin behind it if a line has ended. -/
def plainScalar : Scan Unit := do
  saveKey
  let indent := (← get).indent
  let flow ← inFlow
  let (text, lineEnded) ← read (Scalar.plain flow indent)
  allowKey lineEnded
  emit (.scalar (.text text) true)

/-- Whether a character is an indicator or white space. -/
def isSpecial (c : Char) : Bool :=
  c == ' ' || c == '\t' || isBreak c || "-?:,[]\x7b\x7d#&*!|>'\"%@\x60".toList.contains c

/-- Whether a plain scalar may start here with a character. Some indicators may begin one if no
blank is behind them. -/
def startsPlain (flow : Bool) (c : Char) : Read Bool := do
  if !isSpecial c then return true
  else return !atBlank (← Read.peekAt 1) && (c == '-' || (!flow && (c == '?' || c == ':')))

/-- Scans the token that begins with a character. -/
def token (c : Char) : Scan Unit := do
  let flow ← inFlow
  if c == '%' && (← get).position.column == 0 then
    endBlocks
    emit (← read directive)
  else if ← read (Read.atLineMark '-') then documentMark .documentStart
  else if ← read (Read.atLineMark '.') then documentMark .documentEnd
  else if c == '[' then flowStart .flowSequenceStart
  else if c == '{' then flowStart .flowMappingStart
  else if c == ']' then flowEnd .flowSequenceEnd
  else if c == '}' then flowEnd .flowMappingEnd
  else if c == ',' then flowEntry
  else if ← read (Read.atIndicator '-') then blockEntry
  else if flow && c == '?' then explicitKey
  else if flow && c == ':' then keyValue
  else if ← read (Read.atIndicator '?') then explicitKey
  else if ← read (Read.atIndicator ':') then keyValue
  else if c == '*' then keyPart do return .alias (← anchorName)
  else if c == '&' then keyPart do return .anchor (← anchorName)
  else if c == '!' then keyPart tag
  else if c == '|' && !flow then blockScalar false
  else if c == '>' && !flow then blockScalar true
  else if c == '\'' then keyPart do return .scalar (← Scalar.quoted false) false
  else if c == '"' then keyPart do return .scalar (← Scalar.quoted true) false
  else if ← read (startsPlain flow c) then plainScalar
  else throw .malformed

/-- Scans the next token. -/
def next : Scan Unit := do
  dropStaleKeys
  toNextToken
  dropStaleKeys
  unwind (← get).position.column
  match ← read Read.peek with
  | none => do
    endBlocks
    emit .streamEnd
    modify fun scanner => { scanner with finished := true }
  | some c => token c

end Scan

/-- The tokens of a document. A flaw may end them. -/
structure Tokens where
  list : List Token
  flaw : Option Flaw := none

namespace Scanner

/-- The tokens that are settled: no key can begin before the last of them any more. -/
def settled (scanner : Scanner) : List Token :=
  let position := scanner.position
  let pending := scanner.keys.filterMap fun key => key.filter fun key => !key.isStale position
  scanner.tokens.take (pending.foldl (fun least key => Nat.min least key.token)
    scanner.tokens.length)

/-- Scans tokens to the end of the document or to a flaw. Each token moves over a character, so the
length of the document bounds their number. -/
def toEnd : (bound : Nat) → Scanner → Tokens
  | 0, scanner => ⟨scanner.settled, some .malformed⟩
  | bound + 1, scanner =>
    match Scan.next scanner with
    | .error flaw => ⟨scanner.settled, some flaw⟩
    | .ok ((), after) => if after.finished then ⟨after.tokens, none⟩ else toEnd bound after

end Scanner

/-- The tokens of a document. -/
def Tokens.scan (pieces : Pieces) : Tokens :=
  let position := Position.start pieces
  Scanner.toEnd (position.rest.length + 2) { position }

end JasmineConversion.Yaml
