import JasmineConversion.Source.Reading

/-! # Scanning source code

From a position in a text, the end of a bracket, a literal or a comment is found, white space
and comments are skipped, comments are removed, and arguments are split at their commas. All of
these read the text in the same way.
-/

namespace JasmineConversion.Source

open Text

/-- Whether a comment starts at the front of a text. -/
def startsComment (text : Text) : Bool :=
  startsWith ['/', '/'] text || startsWith ['/', '*'] text

/-- The index of the bracket that closes the one at an index. -/
def matchBracket (text : Text) (index : Nat) : Except SourceError Nat :=
  match text.drop index with
  | [] => .error (.ofIndex (.invalidStart .bracket index []) text index)
  | c :: rest =>
    match Bracket.ofOpener? c with
    | none => .error (.ofIndex (.invalidStart .bracket index [c]) text index)
    | some bracket =>
      match Nesting.closesAt ⟨.code, 0, some ⟨bracket, 0, 0⟩⟩ 1 rest with
      | .ok offset => .ok (index + offset)
      | .error flaw => .error ((flaw.getD ⟨.unbalanced bracket, 0⟩).toError text index)

/-- The index of the delimiter that closes the literal opened at an index. -/
def matchLiteral (text : Text) (index : Nat) : Except SourceError Nat :=
  match text.drop index with
  | [] => .error (.ofIndex (.invalidStart .literal index []) text index)
  | c :: rest =>
    if Mode.isDelimiter c then
      match (Mode.literal c).untilCode rest with
      | some offset => .ok (index + 1 + offset)
      | none => .error (.ofIndex (.unterminatedLiteral c) text index)
    else .error (.ofIndex (.invalidStart .literal index [c]) text index)

/-- The index where the comment that starts at an index ends: that of the line feed after a line
comment, or of the end of the text without one, and the index past the end of a block comment. -/
def matchComment (text : Text) (index : Nat) : Except SourceError Nat :=
  match text.drop index with
  | '/' :: '/' :: rest =>
    match Mode.lineComment.untilCode rest with
    | some offset => .ok (index + 2 + offset)
    | none => .ok text.length
  | '/' :: '*' :: rest =>
    match Mode.blockComment.untilCode rest with
    | some offset => .ok (index + 2 + offset + 1)
    | none => .error (.ofIndex .unterminatedComment text index)
  | other => .error (.ofIndex (.invalidStart .comment index (other.take 2)) text index)

/-- The width of the white space and comments at the front of a text. The mode is `code` or that
of the comment opened at `opened`. -/
def gapFrom : Mode → (opened offset : Nat) → Text → Except Flaw Nat
  | mode, opened, offset, [] =>
    match mode.flaw? with
    | some cause => .error ⟨cause, opened⟩
    | none => .ok offset
  | .code, opened, offset, c :: rest =>
    if isBlank c then gapFrom .code opened (offset + 1) rest
    else if c = '/' then
      match rest with
      | '/' :: rest => gapFrom .lineComment offset (offset + 2) rest
      | '*' :: rest => gapFrom .blockComment offset (offset + 2) rest
      | _ => .ok offset
    else .ok offset
  | mode, opened, offset, c :: rest => gapFrom (mode.next c) opened (offset + 1) rest

/-- The first index from an index on that is neither white space nor in a comment. -/
def skip (text : Text) (index : Nat) : Except SourceError Nat :=
  match gapFrom .code 0 0 (text.drop index) with
  | .ok width => .ok (index + width)
  | .error flaw => .error (flaw.toError text index)

/-- A text without its comments, read from a mode on. -/
def stripCommentsFrom : Mode → (opened offset : Nat) → Text → Except Flaw Text
  | mode, opened, _, [] =>
    match mode.flaw? with
    | some cause => .error ⟨cause, opened⟩
    | none => .ok []
  | mode, opened, offset, c :: rest => do
    let opened := if mode = .code then offset else opened
    let kept ← stripCommentsFrom (mode.next c) opened (offset + 1) rest
    return mode.uncommented c ++ kept

/-- A text without its comments. Literals stay as they are, and so does every line feed. -/
def stripComments (text : Text) : Except SourceError Text :=
  (stripCommentsFrom .code 0 0 text).mapError (·.toError text 0)

/-- Whether a reading stands outside brackets, literals and comments. -/
def atTopLevel (nesting : Nesting) : Bool :=
  nesting.mode = .code && nesting.group.isNone

/-- The pieces of a text between its top-level commas. -/
def segmentsFrom : Nesting → (offset : Nat) → Text → Except Flaw (List Text)
  | nesting, _, [] =>
    match nesting.flaw? with
    | some flaw => .error flaw
    | none => .ok [[]]
  | nesting, offset, c :: rest => do
    let pieces ← segmentsFrom (nesting.next offset c) (offset + 1) rest
    if atTopLevel nesting && c = ',' then return [] :: pieces
    else match pieces with
      | [] => return [[c]]
      | first :: more => return (c :: first) :: more

/-- Texts without the last one, if that is empty. -/
def dropEmptyLast : List Text → List Text
  | [] => []
  | [last] => if last.isEmpty then [] else [last]
  | first :: rest => first :: dropEmptyLast rest

/-- The arguments in the text between the parentheses of a call, trimmed. Nothing after the last
comma is no argument. -/
def splitArguments (text : Text) : Except SourceError (List Text) :=
  match segmentsFrom {} 0 text with
  | .ok pieces => .ok (dropEmptyLast (pieces.map trim))
  | .error flaw => .error (flaw.toError text 0)

end JasmineConversion.Source
