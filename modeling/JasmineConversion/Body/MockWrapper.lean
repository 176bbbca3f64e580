import JasmineConversion.Log
import JasmineConversion.Source.Scan
import JasmineConversion.Text.Content
import JasmineConversion.Text.Layout

/-! # Wrappers around mock verifications

A `try` block that starts a line, mentions the mock library and is followed by a `catch` clause
only reports a failed verification. The code inside it takes its place.
-/

namespace JasmineConversion.Body

open Text Source

/-- A `try` block: the index of its line, of its keyword and of its brace. -/
structure TryBlock where
  start : Nat
  keyword : Nat
  opened : Nat

/-- A `try` block at the start of a line that begins at an index. -/
def tryBlock? (index : Nat) (line : Text) : Option TryBlock := do
  let indent := line.takeWhile isIndent
  let rest ← after? "try".toList (line.dropWhile isIndent)
  let body := trimStart rest
  if startsWith ['{'] body then
    some ⟨index, index + indent.length, index + (line.length - body.length)⟩
  else none

/-- The first `try` block at the start of a line. `fresh` tells that a line starts here. -/
def findTryFrom : (fresh : Bool) → (index : Nat) → Text → Option TryBlock
  | _, _, [] => none
  | fresh, index, c :: rest =>
    match if fresh then tryBlock? index (c :: rest) else none with
    | some block => some block
    | none => findTryFrom (c == '\n') (index + 1) rest

/-- Whether a line starts at an index. -/
def startsLine (code : Text) (index : Nat) : Bool :=
  index == 0 || code[index - 1]? == some '\n'

/-- The first `try` block from an index on. -/
def findTry (code : Text) (index : Nat) : Option TryBlock :=
  findTryFrom (startsLine code index) index (code.drop index)

/-- A `catch` clause behind white space, up to its brace. -/
def catch? (text : Text) : Option Text := do
  let rest ← after? "catch".toList (trimStart text)
  let rest ← after? ['('] (trimStart rest)
  let rest ← after? [')'] (rest.dropWhile (· != ')'))
  let body := trimStart rest
  if startsWith ['{'] body then some body else none

/-- Whether a character ends a line. -/
def isLineEnd (c : Char) : Bool :=
  c == '\r' || c == '\n'

/-- The code of a block that takes the place of its wrapper. -/
def unwrapped (body : Text) : Text :=
  dropEndWhile isLineEnd ((removeOneIndent body).dropWhile isLineEnd)

/-- One step over the code: the code after it, where to go on, and where a wrapper was removed. -/
structure UnwrapStep where
  code : Text
  resume : Nat
  removed : Option Nat

/-- Looks at the first `try` block from an index on, and removes it if it is a wrapper. The step
goes on just behind the keyword. -/
def unwrapStep (marker : Content) (code : Text) (index : Nat) : Except SourceError (Option UnwrapStep) := do
  match findTry code index with
  | none => return none
  | some block =>
    let close ← matchBracket code block.opened
    let body := slice code (block.opened + 1) close
    let kept : UnwrapStep := ⟨code, block.keyword + 3, none⟩
    if marker.occursIn body then
      match catch? (code.drop (close + 1)) with
      | none => return some kept
      | some clause =>
        let clauseClose ← matchBracket code (code.length - clause.length)
        return some
          ⟨code.take block.start ++ unwrapped body ++ code.drop (clauseClose + 1),
            block.keyword + 3, some block.start⟩
    else return some kept

/-- Removes wrappers from an index on. Each step goes on further to the right, so the length of
the code bounds their number. The indexes of the wrappers are given with the outcome. -/
def unwrapFrom (marker : Content) : (bound : Nat) → (code : Text) → (index : Nat) →
    List Nat × Except SourceError Text
  | 0, code, _ => ([], .ok code)
  | bound + 1, code, index =>
    match unwrapStep marker code index with
    | .error error => ([], .error error)
    | .ok none => ([], .ok code)
    | .ok (some step) =>
      let (removed, outcome) := unwrapFrom marker bound step.code step.resume
      (step.removed.toList ++ removed, outcome)

/-- Removes the wrappers in code, and gives the index of each at the time of its removal. -/
def unwrapMocksAt (marker : Content) (code : Text) : List Nat × Except SourceError Text :=
  unwrapFrom marker (code.length + 1) code 0

/-- Code without the wrappers around mock verifications. -/
def unwrapMocks (marker : Content) (code : Text) : Except SourceError Text :=
  (unwrapMocksAt marker code).2

/-- The log record for a removed wrapper. -/
def unwrapRecord (marker : Content) (index : Nat) : LogRecord :=
  ⟨.adapting, .debug,
    "Removed try/catch around " ++ str marker.replaced ++ " call at index " ++ toString index⟩

end JasmineConversion.Body
