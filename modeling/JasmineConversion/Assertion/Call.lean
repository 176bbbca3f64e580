import JasmineConversion.Assertion.Rule
import JasmineConversion.Text.Replace

/-! # Assertion calls in code

An assertion call names a namespace that ends in `Assert`, perhaps behind `Y.`, and a function.
Each call in a body gives way to its expectation, from left to right. What an expectation holds
is not searched again.
-/

namespace JasmineConversion

open Text Source

/-- An assertion call: where it starts, what it calls, and where its parenthesis opens. -/
structure AssertionCall where
  start : Nat
  space : Text
  function : Text
  opened : Nat

namespace AssertionCall

/-- The namespace and the function of a call at the front of a text, and the text from its
parenthesis on. -/
def head? (text : Text) : Option (Text × Text × Text) := do
  let space := text.takeWhile isWord
  let rest ← after? ['.'] (text.dropWhile isWord)
  let function := rest.takeWhile isWord
  let call := trimStart (rest.dropWhile isWord)
  if endsWith "Assert".toList space && !function.isEmpty && startsWith ['('] call then
    some (space, function, call)
  else none

/-- An assertion call at the front of the text that begins at an index. It does not go on with a
name that was begun before. -/
def at? (index : Nat) (previous : Option Char) (text : Text) : Option AssertionCall :=
  if startsFresh previous && previous != some '.' then
    (((after? "Y.".toList text).bind head?).or (head? text)).map fun (space, function, call) =>
      ⟨index, space, function, index + (text.length - call.length)⟩
  else none

/-- The first assertion call in the text that begins at an index. -/
def findFrom : (index : Nat) → (previous : Option Char) → Text → Option AssertionCall
  | _, _, [] => none
  | index, previous, c :: rest =>
    match at? index previous (c :: rest) with
    | some call => some call
    | none => findFrom (index + 1) (some c) rest

/-- The first assertion call from an index on. -/
def find (code : Text) (index : Nat) : Option AssertionCall :=
  findFrom index (if index = 0 then none else code[index - 1]?) (code.drop index)

/-- A text without spaces and tabs and the semicolon behind them, if there is one. -/
def dropSemicolon (text : Text) : Text :=
  (after? [';'] (text.dropWhile isIndent)).getD text

/-- One step over the code: the code after it and where to go on. -/
structure Step where
  code : Text
  resume : Nat

/-- Replaces the first assertion call from an index on. The step goes on behind the
expectation. -/
def step (code : Text) (index : Nat) : Except SourceError (Option Step) := do
  match find code index with
  | none => return none
  | some call =>
    let close ← matchBracket code call.opened
    let arguments ← splitArguments (slice code (call.opened + 1) close)
    let expectation ← (expectationFor call.space call.function arguments).mapError fun error =>
      if error.location.isNone then error.pointAt code call.start else error
    let tail := dropSemicolon (code.drop (close + 1))
    return some ⟨code.take call.start ++ expectation ++ tail, call.start + expectation.length⟩

/-- Replaces the assertion calls from an index on. Each step leaves less of the code behind it,
so the length of the code bounds their number. -/
def replaceFrom : (bound : Nat) → (code : Text) → (index : Nat) → Except SourceError Text
  | 0, code, _ => .ok code
  | bound + 1, code, index => do
    match ← step code index with
    | none => return code
    | some next => replaceFrom bound next.code next.resume

/-- Code with an expectation in place of each assertion call. -/
def replaceAll (code : Text) : Except SourceError Text :=
  replaceFrom (code.length + 1) code 0

end AssertionCall

end JasmineConversion
