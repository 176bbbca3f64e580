import JasmineConversion.Assertion.Call
import JasmineConversion.Body.HelperCall
import JasmineConversion.Body.MockWrapper
import JasmineConversion.Body.SelfReference
import JasmineConversion.Body.SuperCall
import JasmineConversion.Suite.Basic

/-! # Adapting the bodies of a suite

The bodies of a suite are adapted one after the other: in each test case the hooks, the helper
methods and the tests. Names and structure stay as they are. At the first failure the bodies
before it are adapted and all others are left alone.
-/

namespace JasmineConversion

open Text

/-- How bodies are adapted: the fixture variable and the text that marks mock verifications. -/
structure BodyStyle where
  fixture : Text := "thisSuite".toList
  marker : Content := .text "JsMockito".toList

/-- The log of an adaptation, and the failure that stopped it. -/
structure Trail where
  log : List LogRecord := []
  failure : Option SourceError := none

/-- A step of an adaptation. -/
abbrev Adapting := StateM Trail

namespace BodyStyle

/-- The adapted body of a hook, in a test case with the given helper methods. -/
def hookBody (style : BodyStyle) (helpers : List Text) (body : Text) : Except SourceError Text := do
  Body.replaceSelf style.fixture (← Body.shortenHelpers helpers body)

/-- The adapted body of a test or a helper method, with the log of its adaptation. -/
def testBody (style : BodyStyle) (helpers : List Text) (body : Text) :
    List LogRecord × Except SourceError Text :=
  match style.hookBody helpers body with
  | .error error => ([], .error error)
  | .ok body =>
    let (removed, outcome) := Body.unwrapMocksAt style.marker body
    (removed.map (Body.unwrapRecord style.marker), outcome.bind AssertionCall.replaceAll)

end BodyStyle

namespace Adapting

/-- Adds a record to the log, unless the adaptation has failed. -/
def note (message : String) : Adapting Unit :=
  modify fun trail =>
    if trail.failure.isSome then trail
    else { trail with log := trail.log ++ [⟨.adapting, .debug, message⟩] }

/-- Adapts a body of code, unless the adaptation has failed. A failure points into the whole
source. -/
def code (adapt : Text → List LogRecord × Except SourceError Text) (code : Code) :
    Adapting Code := do
  let trail ← get
  if trail.failure.isSome then return code
  else
    let (log, outcome) := adapt code.body
    match outcome with
    | .ok body => do
      set { trail with log := trail.log ++ log }
      return code.setBody body
    | .error error => do
      set ({ log := trail.log ++ log, failure := some (error.relocate (code.line - 1)) } : Trail)
      return code

/-- Adapts a hook that may be absent. -/
def hook (adapt : Text → Except SourceError Text) (hook : Option Code) :
    Adapting (Option Code) :=
  match hook with
  | some body => return some (← code (fun text => ([], adapt text)) body)
  | none => return none

/-- Adapts a helper method. -/
def helper (style : BodyStyle) (names : List Text) (helper : Helper) : Adapting Helper :=
  return { helper with code := ← code (style.testBody names) helper.code }

/-- Adapts a test. -/
def test (style : BodyStyle) (names : List Text) (test : Test) : Adapting Test :=
  return { test with code := ← code (style.testBody names) test.code }

/-- The hooks of a test case on their own: those of a directly constructed one lose their inherited
calls. -/
def ownHooks (testCase : TestCase) : Adapting (Option Code × Option Code) := do
  if testCase.constructorName.isSome then
    let own (body : Text) : Except SourceError Text := .ok (Body.dropSuperCall body)
    return (← hook own testCase.setUp, ← hook own testCase.tearDown)
  else return (testCase.setUp, testCase.tearDown)

/-- Adapts a test case. -/
def testCase (style : BodyStyle) (testCase : TestCase) : Adapting TestCase := do
  note ("Transforming test case '" ++ str testCase.name ++ "'")
  let names := testCase.helpers.map (·.name)
  let own ← ownHooks testCase
  let setUp ← hook (style.hookBody names) own.1
  let tearDown ← hook (style.hookBody names) own.2
  let helpers ← testCase.helpers.mapM (helper style names)
  let tests ← testCase.tests.mapM (test style names)
  return { testCase with setUp, tearDown, helpers, tests }

mutual

/-- Adapts a container and all it holds. -/
def container (style : BodyStyle) : Container → Adapting Container
  | .suite name children => do
    note ("Transforming suite '" ++ str name ++ "'")
    return .suite name (← containers style children)
  | .testCase inner => return .testCase (← testCase style inner)

/-- Adapts containers in order. -/
def containers (style : BodyStyle) : List Container → Adapting (List Container)
  | [] => return []
  | first :: rest => do
    let adapted ← container style first
    return adapted :: (← containers style rest)

end

end Adapting

/-- Adapts all bodies of a container: the container as far as it was adapted, and the trail. -/
def Container.adapt (style : BodyStyle) (container : Container) : Container × Trail :=
  (Adapting.container style container).run {}

end JasmineConversion
