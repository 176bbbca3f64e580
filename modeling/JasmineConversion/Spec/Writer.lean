import JasmineConversion.Spec.Line
import JasmineConversion.Suite.Node
import JasmineConversion.Text.Replace

/-! # Writing specs

A suite or a test case is written as a `describe` block, and a test as an `it` block. Empty
lines separate the blocks.
-/

namespace JasmineConversion.Spec

open Text

/-- A double quote that no backslash precedes. -/
def bareQuote : Finder := fun previous text =>
  if text.head? = some '"' && previous != some '\\' then some (1, ['\\', '"']) else none

/-- A text between double quotes, with its bare double quotes escaped. -/
def quote (text : Text) : Text :=
  ['"'] ++ replaceAll bareQuote text ++ ['"']

/-- The tail of a block that is the last argument of a call. -/
def callTail : Text := "\x7d );".toList

/-- A call of `name` with a quoted title and a function that holds lines. -/
def titledBlock (name : Text) (title : Text) (inner : List Line) : List Line :=
  Line.block (name ++ "( ".toList ++ quote title ++ ", function() \x7b".toList) inner callTail

/-- A call of `name` with a function that holds lines. -/
def functionBlock (name : Text) (inner : List Line) (tail : Text) : List Line :=
  Line.block (name ++ "( function() \x7b".toList) inner tail

/-- The code that runs before each test. It creates the fixture, and a directly constructed
test case runs its own code first. -/
def beforeEach (fixture : Text) (constructorName : Option Text) (body : Text) : List Line :=
  let creation := match constructorName with
    | some name =>
      Line.ofText (fixture ++ " = new ".toList ++ name ++ "();".toList) ++
        Line.ofText (fixture ++ ".setUp();".toList)
    | none => Line.ofText (fixture ++ " = \x7b\x7d;".toList)
  let rest := if body.isEmpty then [] else Line.blank ++ Line.ofText body
  Line.ofText ("var ".toList ++ fixture ++ [';']) ++ Line.blank ++
    functionBlock "beforeEach".toList (creation ++ rest) callTail

/-- The code that runs after each test. A directly constructed test case runs its own code
last. -/
def afterEach (fixture : Text) (constructorName : Option Text) (body : Text) : List Line :=
  let inner := match constructorName with
    | some _ =>
      (if body.isEmpty then [] else Line.ofText body ++ Line.blank) ++
        Line.ofText (fixture ++ ".tearDown();".toList)
    | none => Line.ofBody body
  functionBlock "afterEach".toList inner callTail

/-- The hooks of a test case. A directly constructed one always has both. -/
def hooks (fixture : Text) (testCase : TestCase) : List Line :=
  let name := testCase.constructorName
  let setUp := testCase.setUp.map (·.body)
  let tearDown := testCase.tearDown.map (·.body)
  let (setUp, tearDown) :=
    if name.isSome then (some (setUp.getD []), some (tearDown.getD [])) else (setUp, tearDown)
  (setUp.map fun body => beforeEach fixture name body ++ Line.blank).getD [] ++
    (tearDown.map fun body => afterEach fixture name body ++ Line.blank).getD []

/-- A helper method as a plain function. -/
def helper (found : Helper) : List Line :=
  Line.block
    ("function ".toList ++ found.name ++ ['('] ++ found.parameters ++ ") \x7b".toList)
    (Line.ofBody found.code.body) ['}']

/-- A test. It is disabled if it is to be ignored, and expects an error if one is to be thrown. -/
def test (should : Option Should) (found : Test) : List Line :=
  let ignored := should.any (·.isIgnored found.name)
  let body := Line.ofBody found.code.body
  let inner := match should.bind (·.expectedError found.name) with
    | some message =>
      functionBlock "expect".toList body
        ("\x7d ).toThrow( ".toList ++ quote message ++ " );".toList)
    | none => body
  titledBlock (if ignored then "xit".toList else "it".toList) found.name inner

/-- Lines set apart by an empty line before and after them. -/
def apart (inner : List Line) : List Line :=
  Line.blank ++ inner ++ Line.blank

/-- A test case. -/
def testCase (fixture : Text) (inner : TestCase) : List Line :=
  titledBlock "describe".toList inner.name
    (hooks fixture inner ++ inner.helpers.flatMap (fun found => apart (helper found)) ++
      inner.tests.flatMap fun found => apart (test inner.should found))

mutual

/-- A suite or a test case. -/
def container (fixture : Text) : Container → List Line
  | .suite name children =>
    titledBlock "describe".toList name (containers fixture children)
  | .testCase inner => testCase fixture inner

/-- The children of a suite, set apart. -/
def containers (fixture : Text) : List Container → List Line
  | [] => []
  | first :: rest => apart (container fixture first) ++ containers fixture rest

end

/-- How specs are written: the indent unit, the level of the outermost lines and the fixture
variable. -/
structure Style where
  unit : Text := ['\t']
  level : Int := 0
  fixture : Text := "thisSuite".toList

/-- The text of a spec. -/
def write (style : Style) (tree : Container) : Text :=
  Line.renderAll style.unit style.level (container style.fixture tree)

/-- The text of a spec for a part of a suite. Only containers have one; the kind of another part
is given instead. -/
def writeNode (style : Style) : Node → Except String Text
  | .container tree => .ok (write style tree)
  | node => .error ("Expected a Suite or TestCase node, got " ++ node.kindName)

end JasmineConversion.Spec
