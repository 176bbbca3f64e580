import JasmineConversion.Literal.Reader
import JasmineConversion.Log
import JasmineConversion.Suite.Basic
import JasmineConversion.Suite.Pattern

/-! # Reading suites from source text

A cursor moves over the source text. Each reader skips white space and comments and looks for
its construct there. If it does not find it, it leaves the cursor where it was, so that others
can be tried. The cursor stays where an error arose.
-/

namespace JasmineConversion

open Text Source

/-- The state of a reading: the index that is next, and the log so far. -/
structure Cursor where
  index : Nat := 0
  log : List LogRecord := []

/-- A reading of source text. -/
abbrev SuiteReader := EStateM SourceError Cursor

/-- The header of a suite or a test case. `stop` is the index behind the header, `close` that of
the brace that closes the container. -/
structure Header where
  name : Text
  stop : Nat
  close : Nat
  constructorName : Option Text

/-- What was read: the outer container, the range of the text that it takes up, and the indent
level of its first line. -/
structure OuterContainer where
  tree : Container
  start : Nat
  stop : Nat
  indentLevel : Nat

namespace SuiteReader

/-- The classes that are written as plain suites. -/
def suiteClasses : List Text :=
  ["Ext.test.TestSuite".toList, "Ext.test.Suite".toList]

/-- The classes that are written as plain test cases. -/
def caseClasses : List Text :=
  ["Ext.test.TestCase".toList, "Ext.test.Case".toList]

/-- The index that is next. -/
def position : SuiteReader Nat :=
  return (← get).index

/-- Moves the cursor to an index. -/
def moveTo (index : Nat) : SuiteReader Unit :=
  modify fun cursor => { cursor with index }

/-- Adds a record to the log. -/
def note (message : String) : SuiteReader Unit :=
  modify fun cursor => { cursor with log := cursor.log ++ [⟨.reading, .debug, message⟩] }

/-- The outcome of a scan. -/
def ofExcept {α : Type} : Except SourceError α → SuiteReader α
  | .ok value => pure value
  | .error error => throw error

/-- Fails because of text that is out of place at an index. -/
def misplacedAt {α : Type} (source : Text) (what : Misplaced) (index : Nat) : SuiteReader α :=
  throw (.ofIndex (.misplaced what) source index)

/-- Fails because of text that is out of place at the cursor. -/
def misplaced {α : Type} (source : Text) (what : Misplaced) : SuiteReader α := do
  misplacedAt source what (← position)

/-- Moves the cursor over white space and comments. -/
def skipGap (source : Text) : SuiteReader Unit := do
  moveTo (← ofExcept (skip source (← position)))

/-- The text from the cursor on. -/
def rest (source : Text) : SuiteReader Text :=
  return source.drop (← position)

/-- The index at which the rest of a text starts. -/
def indexOf (source rest : Text) : Nat :=
  source.length - rest.length

/-- Moves the cursor over a comma, if one is next. -/
def skipComma (source : Text) : SuiteReader Unit := do
  if startsWith [','] (← rest source) then moveTo ((← position) + 1)

/-- What a pattern finds behind white space and comments. If it finds nothing, the cursor goes
back. -/
def find {α : Type} (source : Text) (pattern : Text → Option α) : SuiteReader (Option α) := do
  let start ← position
  skipGap source
  match pattern (← rest source) with
  | some found => return some found
  | none => do
    moveTo start
    return none

/-- Reads the body whose brace opens at an index, and moves behind it. The line of a body is that
of its first character that is not blank. -/
def body (source : Text) (opened : Nat) : SuiteReader Code := do
  let close ← ofExcept (matchBracket source opened)
  let raw := slice source (opened + 1) close
  let lead := raw.length - (trimStart raw).length
  moveTo (close + 1)
  return .ofRaw raw (lineAt source (opened + 1 + lead))

/-- Reads the hook with a name. -/
def hook (source name : Text) : SuiteReader (Option Code) := do
  match ← find source (Pattern.hook? name) with
  | some text => return some (← body source (indexOf source text))
  | none => return none

/-- Reads the code that runs before each test. -/
def setUp (source : Text) : SuiteReader (Option Code) :=
  hook source "setUp".toList

/-- Reads the code that runs after each test. -/
def tearDown (source : Text) : SuiteReader (Option Code) :=
  hook source "tearDown".toList

/-- A test under a quoted name that is not empty, with the index of its body. -/
def quotedTest (source : Text) (index : Nat) : Except SourceError (Option (Text × Nat)) :=
  match source.drop index with
  | [] => .ok none
  | c :: _ =>
    if Mode.isQuote c then do
      let close ← matchLiteral source index
      let name := slice source (index + 1) close
      if name.isEmpty then return none
      else
        let tail := Pattern.key? [] (source.drop (close + 1))
        return (tail.bind Pattern.plainFunction?).map fun text => (name, indexOf source text)
    else .ok none

/-- Reads a test: a function without parameters under an identifier that starts with `test`, or
under a quoted phrase. -/
def test (source : Text) : SuiteReader (Option Test) := do
  let start ← position
  skipGap source
  match Pattern.test? (← rest source) with
  | some (name, text) => return some ⟨name, ← body source (indexOf source text)⟩
  | none =>
    match ← ofExcept (quotedTest source (← position)) with
    | some (name, opened) => return some ⟨name, ← body source opened⟩
    | none => do
      moveTo start
      return none

/-- Skips a member without a name, and tells whether there was one. -/
def placeholder (source : Text) : SuiteReader Bool := do
  match ← find source Pattern.placeholder? with
  | some text => do
    moveTo ((← ofExcept (matchBracket source (indexOf source text))) + 1)
    return true
  | none => return false

/-- Reads a helper method. -/
def helper (source : Text) : SuiteReader (Option Helper) := do
  match ← find source Pattern.helper? with
  | some (name, parameters, text) =>
    return some ⟨name, parameters, ← body source (indexOf source text)⟩
  | none => return none

/-- The messages that tests must throw. All of them are strings. -/
def expectErrors (should : Should) : List (Text × Literal) → Except (Text × DirectiveFault) Should
  | [] => .ok should
  | (test, .string message) :: rest => expectErrors (should.expectError test message) rest
  | (test, _) :: _ => .error ("error".toList, .messageNotString test)

/-- The directives that the entries of an object give. -/
def directives (should : Should) : List (Text × Literal) → Except (Text × DirectiveFault) Should
  | [] => .ok should
  | (key, value) :: rest =>
    if key ≠ "ignore".toList ∧ key ≠ "error".toList then .error (key, .unknown)
    else match value with
      | .object entries =>
        if key = "ignore".toList then
          directives (entries.foldl (fun should entry => should.ignore entry.1) should) rest
        else do
          directives (← expectErrors should entries) rest
      | _ => .error (key, .notObject)

/-- The entries of an object. -/
def entriesOf : Literal → List (Text × Literal)
  | .object entries => entries
  | _ => []

/-- Reads the directives of a test case. -/
def should (source : Text) : SuiteReader (Option Should) := do
  match ← find source Pattern.should? with
  | none => return none
  | some text => do
    let opened := indexOf source text
    let close ← ofExcept (matchBracket source opened)
    let literal ← ofExcept ((Literal.read (slice source opened (close + 1))).mapError
      (·.relocate (lineAt source opened - 1)))
    match directives {} (entriesOf literal) with
    | .error (key, fault) => throw (.ofIndex (.directive key fault) source opened)
    | .ok should => do
      moveTo (close + 1)
      return some should

/-- The header at an index: an opening brace and a quoted name, behind the call of a constructor
if one is allowed. -/
def header (source : Text) (index : Nat) (allowConstructor : Bool) :
    Except SourceError (Option Header) := do
  let text := source.drop index
  let called := if allowConstructor then Pattern.construction? text else none
  let text := (called.map (·.2)).getD text
  let opened := indexOf source text
  if !startsWith ['{'] text then return none
  else
    let nameIndex ← skip source (opened + 1)
    match Pattern.key? "name".toList (source.drop nameIndex) with
    | none => return none
    | some text =>
      if !text.head?.any Mode.isQuote then return none
      else
        let quote := indexOf source text
        let nameClose ← matchLiteral source quote
        let afterName ← skip source (nameClose + 1)
        let stop := if startsWith [','] (source.drop afterName) then afterName + 1 else afterName
        let close ← matchBracket source opened
        return some ⟨slice source (quote + 1) nameClose, stop, close, called.map (·.1)⟩

/-- Whether the key that marks a suite stands at an index, behind white space and comments. -/
def hasTtype (source : Text) (index : Nat) : Except SourceError Bool := do
  let start ← skip source index
  return (Pattern.key? "ttype".toList (source.drop start)).isSome

/-- Moves over the key that marks a suite and its value, if it is there. -/
def skipTtype (source : Text) : SuiteReader Unit := do
  skipGap source
  match Pattern.key? "ttype".toList (← rest source) with
  | none => return
  | some text => do
    let value := indexOf source text
    if text.head?.any Mode.isQuote then
      moveTo ((← ofExcept (matchLiteral source value)) + 1)
    else if text.head?.any Pattern.isDotted then
      moveTo (indexOf source (text.dropWhile Pattern.isDotted))
    else misplacedAt source .ttypeValue value
    skipGap source
    skipComma source
    skipGap source

/-- Moves over the end of a container. -/
def closeContainer (source : Text) (header : Header) : SuiteReader Unit := do
  skipGap source
  if (← position) ≠ header.close then misplaced source (.afterMembers header.name)
  moveTo (header.close + 1)
  match header.constructorName with
  | none => return
  | some name => do
    skipGap source
    if !startsWith [')'] (← rest source) then misplaced source (.constructorClose name)
    moveTo ((← position) + 1)

/-- Reads one member of a test case and adds it. -/
def member (source : Text) (testCase : TestCase) : SuiteReader TestCase := do
  let start ← position
  let duplicate (what : SingleMember) : SuiteReader Unit :=
    misplacedAt source (.duplicate what testCase.name) start
  if let some code ← setUp source then
    if testCase.setUp.isSome then duplicate .setUp
    return { testCase with setUp := some code }
  if let some code ← tearDown source then
    if testCase.tearDown.isSome then duplicate .tearDown
    return { testCase with tearDown := some code }
  if let some directives ← should source then
    if testCase.should.isSome then duplicate .should
    return { testCase with should := some directives }
  if let some found ← test source then
    return { testCase with tests := testCase.tests ++ [found] }
  if ← placeholder source then
    return testCase
  if let some found ← helper source then
    return { testCase with helpers := testCase.helpers ++ [found] }
  misplaced source (.testCaseMember testCase.name)

/-- Reads the members of a test case up to its closing brace. Commas between them may be left
out. Each member moves the cursor on, so the length of the source bounds their number. -/
def members (source : Text) (close : Nat) : (bound : Nat) → TestCase → SuiteReader TestCase
  | 0, testCase => misplaced source (.testCaseMember testCase.name)
  | bound + 1, testCase => do
    skipGap source
    if (← position) ≥ close then return testCase
    else
      let testCase ← member source testCase
      skipGap source
      skipComma source
      members source close bound testCase

/-- Reads the members of a test case and its end. -/
def testCaseBody (source : Text) (header : Header) (constructorName : Option Text) :
    SuiteReader TestCase := do
  let testCase ← members source header.close (source.length + 1)
    { name := header.name, constructorName }
  closeContainer source header
  return testCase

/-- Reads a test case, written as an object literal or as the construction of one. -/
def testCase (source : Text) : SuiteReader (Option TestCase) := do
  let start ← position
  let absent : SuiteReader (Option TestCase) := do
    moveTo start
    return none
  skipGap source
  match ← ofExcept (header source (← position) true) with
  | none => absent
  | some header =>
    if header.constructorName.any suiteClasses.contains then absent
    else if ← ofExcept (hasTtype source header.stop) then absent
    else
      moveTo header.stop
      let testCase ← testCaseBody source header
        (header.constructorName.filter fun name => !caseClasses.contains name)
      note ("Parsed test case '" ++ str testCase.name ++ "' with " ++
        toString testCase.tests.length ++ " tests")
      return some testCase

/-- Reads the list of a suite's items and the end of the suite. `children` reads items up to an
index. -/
def suiteItems (source : Text) (children : (name : Text) → (close : Nat) →
    SuiteReader (List Container)) (header : Header) : SuiteReader (List Container) := do
  skipGap source
  match Pattern.items? (← rest source) with
  | none => do
    closeContainer source header
    return []
  | some text => do
    let opened := indexOf source text - 1
    let close ← ofExcept (matchBracket source opened)
    moveTo (opened + 1)
    let found ← children header.name close
    moveTo (close + 1)
    skipGap source
    skipComma source
    closeContainer source header
    return found

/-- Reads a nested suite. -/
def suiteWith (source : Text) (children : (name : Text) → (close : Nat) →
    SuiteReader (List Container)) : SuiteReader (Option Container) := do
  let start ← position
  let absent : SuiteReader (Option Container) := do
    moveTo start
    return none
  skipGap source
  match ← ofExcept (header source (← position) true) with
  | none => absent
  | some header =>
    if header.constructorName.any fun name => !suiteClasses.contains name then absent
    else if !(← ofExcept (hasTtype source header.stop)) then absent
    else
      moveTo header.stop
      skipTtype source
      let found ← suiteItems source children header
      note ("Parsed suite '" ++ str header.name ++ "' with " ++ toString found.length ++
        " children")
      return some (.suite header.name found)

/-- Reads the items of a suite up to the bracket that closes their list. Commas between them may
be left out. Each item moves the cursor on, so the length of the source bounds their number and
their depth. -/
def items (source : Text) : (bound : Nat) → (name : Text) → (close : Nat) →
    SuiteReader (List Container)
  | 0, name, _ => misplaced source (.suiteItem name)
  | bound + 1, name, close => do
    skipGap source
    if (← position) ≥ close then return []
    else
      let child ← do
        match ← suiteWith source (items source bound) with
        | some child => pure child
        | none =>
          match ← testCase source with
          | some child => pure (.testCase child)
          | none => misplaced source (.suiteItem name)
      skipGap source
      skipComma source
      return child :: (← items source bound name close)

/-- Reads a nested suite. -/
def suite (source : Text) : SuiteReader (Option Container) :=
  suiteWith source (items source (source.length + 1))

/-- Reads the outer container when it is not marked as a test case: a list of items makes it a
suite. -/
def outerSuite (source : Text) : SuiteReader (Option Container) := do
  match ← ofExcept (header source (← position) false) with
  | none => return none
  | some header => do
    moveTo header.stop
    skipTtype source
    if (Pattern.items? (← rest source)).isSome then
      return some (.suite header.name
        (← suiteItems source (items source (source.length + 1)) header))
    else
      return some (.testCase (← testCaseBody source header none))

/-- The kind of a container, as log records name it. -/
def kindName : Container → String
  | .suite _ _ => "Suite"
  | .testCase testCase => if testCase.constructorName.isSome then "DiTestCase" else "TestCase"

/-- Reads the outer container behind its anchor. -/
def outerTree (source : Text) (declared : Bool) : SuiteReader (Option Container) := do
  if declared then return (← testCase source).map Container.testCase
  else outerSuite source

/-- Finds and reads the outer container of a source text. -/
def outer (source : Text) : SuiteReader OuterContainer := do
  match Pattern.findAnchor source with
  | none => throw (.ofIndex .noOuterContainer source 0)
  | some (start, anchor) => do
    note ("Found outer container anchor for package '" ++ str anchor.package ++ "' at index " ++
      toString start)
    moveTo (indexOf source anchor.body)
    match ← outerTree source (anchor.extClass.any (endsWith "Case".toList)) with
    | none => misplaced source .outerHeader
    | some tree => do
      let tree := tree.qualify anchor.package
      match Pattern.outerClose? anchor.extClass.isSome (← rest source) with
      | none => misplaced source .outerClose
      | some text => do
        let stop := indexOf source text
        moveTo stop
        note ("Parsed outer " ++ kindName tree ++ " '" ++ str tree.name ++ "' spanning [" ++
          toString start ++ ", " ++ toString stop ++ ")")
        return ⟨tree, start, stop, indentLevel anchor.indent⟩

end SuiteReader

/-- Reads the outer container of a source text. -/
def OuterContainer.read (source : Text) : Except SourceError OuterContainer :=
  match SuiteReader.outer source {} with
  | .ok found _ => .ok found
  | .error error _ => .error error

end JasmineConversion
