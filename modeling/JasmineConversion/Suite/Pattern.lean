import JasmineConversion.Text.Basic
import JasmineConversion.Text.Word

/-! # The heads of suite constructs

Each function looks at the front of a text and gives what it found there with the text that
follows.
-/

namespace JasmineConversion.Pattern

open Text

/-- Whether a character may stand in a dotted name. -/
def isDotted (c : Char) : Bool :=
  isIdentifierPart c || c == '.'

/-- A key and its colon, with the white space around the colon. -/
def key? (name text : Text) : Option Text := do
  let rest ← after? name text
  let rest ← after? [':'] (trimStart rest)
  return trimStart rest

/-- The head of a function, up to the brace that opens its body. The parameters are all that
stands before the first closing parenthesis. -/
def function? (text : Text) : Option (Text × Text) := do
  let rest ← after? "function".toList text
  let rest ← after? ['('] (trimStart rest)
  let parameters := rest.takeWhile (· != ')')
  let rest ← after? [')'] (rest.dropWhile (· != ')'))
  let body := trimStart rest
  if startsWith ['{'] body then some (parameters, body) else none

/-- The head of a function without parameters. -/
def plainFunction? (text : Text) : Option Text := do
  let (parameters, body) ← function? text
  if isBlankText parameters then some body else none

/-- A hook: a function without parameters under a fixed key. -/
def hook? (name text : Text) : Option Text := do
  plainFunction? (← key? name text)

/-- An identifier, which starts with a letter of ASCII, an underscore or a dollar sign. -/
def identifier? (text : Text) : Option (Text × Text) :=
  match text with
  | [] => none
  | c :: _ =>
    if isIdentifierStart c then
      some (text.takeWhile isIdentifierPart, text.dropWhile isIdentifierPart)
    else none

/-- The name of a test after its marker: one underscore is left out if an identifier follows. -/
def testName? (text : Text) : Option (Text × Text) :=
  match after? ['_'] text with
  | some rest => (identifier? rest).or (identifier? text)
  | none => identifier? text

/-- A test under an identifier that starts with the marker `test`. -/
def test? (text : Text) : Option (Text × Text) := do
  let (name, rest) ← testName? (← after? "test".toList text)
  return (name, ← plainFunction? (← key? [] rest))

/-- A member under two quotes with nothing between them. -/
def placeholder? (text : Text) : Option Text := do
  let rest ← (after? "''".toList text).or (after? "\"\"".toList text)
  let (_, body) ← function? (← key? [] rest)
  return body

/-- A helper method: its name, its parameters and the text from its body on. -/
def helper? (text : Text) : Option (Text × Text × Text) := do
  let (name, rest) ← identifier? text
  let (parameters, body) ← function? (← key? [] rest)
  return (name, parameters, body)

/-- The call of a constructor with an object literal, up to the brace of the literal. -/
def construction? (text : Text) : Option (Text × Text) := do
  let rest ← after? "new".toList text
  let called := trimStart rest
  if called.length = rest.length then none
  else match called with
    | [] => none
    | c :: _ =>
      if isIdentifierStart c then
        let rest ← after? ['('] (trimStart (called.dropWhile isDotted))
        let body := trimStart rest
        if startsWith ['{'] body then some (called.takeWhile isDotted, body) else none
      else none

/-- The list of a suite's items, from behind its opening bracket on. -/
def items? (text : Text) : Option Text := do
  after? ['['] (← key? "items".toList text)

/-- The directives of a test case, from their opening brace on. -/
def should? (text : Text) : Option Text := do
  let body ← key? "_should".toList text
  if startsWith ['{'] body then some body else none

/-- Optional white space and a semicolon; the white space goes even when no semicolon follows. -/
def semicolon (text : Text) : Text :=
  let rest := trimStart text
  (after? [';'] rest).getD rest

/-- What closes the outer container: one parenthesis, or two when it was constructed. -/
def outerClose? (constructed : Bool) (text : Text) : Option Text := do
  let rest ← after? [')'] (trimStart text)
  if constructed then
    return semicolon (← after? [')'] (trimStart rest))
  else
    return semicolon rest

/-- The line that opens the outer container. -/
structure Anchor where
  indent : Text
  package : Text
  extClass : Option Text
  body : Text

/-- The class of the outer container, which is some kind of suite or case. -/
def extClass? (text : Text) : Option (Text × Text) := do
  let rest ← after? "new".toList text
  let called := trimStart rest
  if called.length = rest.length then none
  else
    let rest ← after? "Ext.test.".toList called
    let name := rest.takeWhile isWord
    let arguments ← after? ['('] (rest.dropWhile isWord)
    if endsWith "Suite".toList name || endsWith "Case".toList name then
      some (name, trimStart arguments)
    else none

/-- The outer container's opening at the start of a line. -/
def anchor? (line : Text) : Option Anchor := do
  let indent := line.takeWhile isIndent
  let rest ← after? "tests.".toList (line.dropWhile isIndent)
  let dotted := rest.takeWhile isDotted
  let argument ← after? ['('] (rest.dropWhile isDotted)
  let package := dotted.take (dotted.length - 4)
  if package.isEmpty || !endsWith ".add".toList dotted then none
  else
    let argument := trimStart argument
    match extClass? argument with
    | some (name, body) =>
      if startsWith ['{'] body then some ⟨indent, package, some name, body⟩ else none
    | none => if startsWith ['{'] argument then some ⟨indent, package, none, argument⟩ else none

/-- The first anchor of a text, with its index. `fresh` tells that a line starts here. -/
def findAnchorFrom : (fresh : Bool) → (index : Nat) → Text → Option (Nat × Anchor)
  | _, _, [] => none
  | fresh, index, c :: rest =>
    match if fresh then anchor? (c :: rest) else none with
    | some anchor => some (index, anchor)
    | none => findAnchorFrom (c == '\n') (index + 1) rest

/-- The first anchor of a text, with its index. -/
def findAnchor (text : Text) : Option (Nat × Anchor) :=
  findAnchorFrom true 0 text

end JasmineConversion.Pattern
