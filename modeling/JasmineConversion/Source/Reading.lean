import JasmineConversion.Error

/-! # Reading source code character by character

Source code is read as comments, literals and code. A slash starts a comment when a slash or an
asterisk follows it, and a regular expression literal otherwise; there is no division. A
backslash in a literal takes the next character with it. Brackets count only in code, and inside
a bracket only those of its own kind do.
-/

namespace JasmineConversion

/-- What the reading of source code is inside of. -/
inductive Mode where
  | code
  | slash
  | literal (delimiter : Char)
  | escape (delimiter : Char)
  | lineComment
  | blockComment
  | blockStar
  deriving DecidableEq

namespace Mode

/-- Whether a character delimits a string. -/
def isQuote (c : Char) : Bool :=
  c == '\'' || c == '"'

/-- Whether a character delimits a string or a regular expression. -/
def isDelimiter (c : Char) : Bool :=
  isQuote c || c == '/'

/-- The mode after one more character. A line feed ends a line comment. -/
def next : Mode → Char → Mode
  | code, c => if c = '/' then slash else if isQuote c then literal c else code
  | slash, c =>
      if c = '/' then lineComment
      else if c = '*' then blockComment
      else if c = '\\' then escape '/'
      else literal '/'
  | literal delimiter, c =>
      if c = '\\' then escape delimiter
      else if c = delimiter then code
      else literal delimiter
  | escape delimiter, _ => literal delimiter
  | lineComment, c => if c = '\n' then code else lineComment
  | blockComment, c => if c = '*' then blockStar else blockComment
  | blockStar, c => if c = '/' then code else if c = '*' then blockStar else blockComment

/-- What is wrong with a text that ends in a mode. -/
def flaw? : Mode → Option Cause
  | code => none
  | lineComment => none
  | slash => some (.unterminatedLiteral '/')
  | literal delimiter => some (.unterminatedLiteral delimiter)
  | escape delimiter => some (.unterminatedLiteral delimiter)
  | blockComment => some .unterminatedComment
  | blockStar => some .unterminatedComment

/-- The offset of the first character after which the reading is back in code. -/
def untilCode : Mode → Text → Option Nat
  | _, [] => none
  | mode, c :: rest =>
    if mode.next c = code then some 0 else (untilCode (mode.next c) rest).map (· + 1)

/-- What remains of a character, read in a mode, when comments are removed. The slash that may
open a comment is held back until the next character decides, and line feeds are kept. -/
def uncommented : Mode → Char → Text
  | code, c => if c = '/' then [] else [c]
  | slash, c => if c = '/' || c = '*' then [] else ['/', c]
  | literal _, c => [c]
  | escape _, c => [c]
  | lineComment, c => if c = '\n' then [c] else []
  | blockComment, c => if c = '\n' then [c] else []
  | blockStar, c => if c = '\n' then [c] else []

end Mode

/-- A bracket that is open, with how many brackets of its kind are open inside it. -/
structure Group where
  bracket : Bracket
  inner : Nat
  opened : Nat

/-- Where a reading stands: its mode, where the literal or comment it is in was opened, and the
outermost open bracket. -/
structure Nesting where
  mode : Mode := .code
  opened : Nat := 0
  group : Option Group := none

/-- A cause with the offset it arose at. -/
structure Flaw where
  cause : Cause
  offset : Nat

/-- The error that a flaw is, in a text that is read from an index on. -/
def Flaw.toError (flaw : Flaw) (text : Text) (base : Nat) : SourceError :=
  .ofIndex flaw.cause text (base + flaw.offset)

namespace Nesting

/-- The open bracket after a character of code. -/
def nextGroup (group : Option Group) (offset : Nat) (c : Char) : Option Group :=
  match group with
  | none => (Bracket.ofOpener? c).map fun bracket => ⟨bracket, 0, offset⟩
  | some outer =>
    if c = outer.bracket.opener then some { outer with inner := outer.inner + 1 }
    else if c = outer.bracket.closer then
      match outer.inner with
      | 0 => none
      | inner + 1 => some { outer with inner }
    else some outer

/-- Where the reading stands after the character at an offset. -/
def next (nesting : Nesting) (offset : Nat) (c : Char) : Nesting :=
  match nesting.mode with
  | .code => ⟨Mode.code.next c, offset, nextGroup nesting.group offset c⟩
  | mode => { nesting with mode := mode.next c }

/-- What is wrong with a text that ends here: a literal or comment that is open, or else an open
bracket. -/
def flaw? (nesting : Nesting) : Option Flaw :=
  match nesting.mode.flaw? with
  | some cause => some ⟨cause, nesting.opened⟩
  | none => nesting.group.map fun group => ⟨.unbalanced group.bracket, group.opened⟩

/-- The offset of the character that closes the open bracket. -/
def closesAt : Nesting → (offset : Nat) → Text → Except (Option Flaw) Nat
  | nesting, _, [] => .error nesting.flaw?
  | nesting, offset, c :: rest =>
    let after := nesting.next offset c
    if after.group.isNone then .ok offset else closesAt after (offset + 1) rest

end Nesting

end JasmineConversion
