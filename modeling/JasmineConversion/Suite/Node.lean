import JasmineConversion.Suite.Adaptation
import JasmineConversion.Text.Quoted

/-! # Parts of a suite on their own

Any part of a suite can be looked at, listed, given another body and adapted by itself.
-/

namespace JasmineConversion

open Text

/-- A container or one of the parts of a test case. -/
inductive Node where
  | container (container : Container)
  | should (should : Should)
  | setUp (code : Code)
  | tearDown (code : Code)
  | test (test : Test)
  | helper (helper : Helper)

/-- What a listing names: the kind of a part, and its name or body. -/
structure Visit where
  kind : String
  text : Text

namespace Visit

/-- The parts of a test case in order; helper methods are left out. -/
def ofParts (testCase : TestCase) : List Visit :=
  (testCase.should.map fun _ => ⟨"should", []⟩).toList ++
    (testCase.setUp.map fun code => ⟨"set_up", code.body⟩).toList ++
    (testCase.tearDown.map fun code => ⟨"tear_down", code.body⟩).toList ++
    testCase.tests.map fun test => ⟨"test", test.name⟩

mutual

/-- A container and what it holds, in order. The parts of test cases are included if `deep`. -/
def ofContainer (deep : Bool) : Container → List Visit
  | .suite name children => ⟨"suite", name⟩ :: ofContainers deep children
  | .testCase inner => ⟨"test_case", inner.name⟩ :: if deep then ofParts inner else []

/-- Containers and what they hold, in order. -/
def ofContainers (deep : Bool) : List Container → List Visit
  | [] => []
  | first :: rest => ofContainer deep first ++ ofContainers deep rest

end

end Visit

namespace Node

/-- A part and what it holds, in order. A helper method alone is not listed. -/
def visits (deep : Bool) : Node → List Visit
  | container tree => Visit.ofContainer deep tree
  | should _ => [⟨"should", []⟩]
  | setUp code => [⟨"set_up", code.body⟩]
  | tearDown code => [⟨"tear_down", code.body⟩]
  | test found => [⟨"test", found.name⟩]
  | helper _ => []

/-- The kind of a part, as messages name it. -/
def kindName : Node → String
  | container (.suite _ _) => "Suite"
  | container (.testCase inner) =>
      if inner.constructorName.isSome then "DiTestCase" else "TestCase"
  | should _ => "Should"
  | setUp _ => "SetUp"
  | tearDown _ => "TearDown"
  | test _ => "Test"
  | helper _ => "HelperMethod"

/-- The body of a part that has one. -/
def code? : Node → Option Code
  | setUp code => some code
  | tearDown code => some code
  | test found => some found.code
  | helper found => some found.code
  | _ => none

/-- A part with another body. -/
def setBody (raw : Text) : Node → Node
  | setUp code => setUp (code.setBody raw)
  | tearDown code => tearDown (code.setBody raw)
  | test found => test { found with code := found.code.setBody raw }
  | helper found => helper { found with code := found.code.setBody raw }
  | other => other

/-- A part that holds code, as it is shown on one line. -/
def describe : Node → String
  | test found =>
      "Test(name=" ++ shown found.name ++ ", line=" ++ toString found.code.line ++ ")"
  | helper found =>
      "HelperMethod(name=" ++ shown found.name ++ ", args_list=" ++ shown found.parameters ++ ")"
  | node =>
    match node.code? with
    | some code =>
        node.kindName ++ "(line=" ++ toString code.line ++ ", body=" ++ shown code.body ++ ")"
    | none => node.kindName

/-- Adapts all bodies of a part. -/
def adapting (style : BodyStyle) : Node → Adapting Node
  | container tree => return container (← Adapting.container style tree)
  | should directives => return should directives
  | setUp code => return setUp (← Adapting.code (fun text => ([], style.hookBody [] text)) code)
  | tearDown code =>
    return tearDown (← Adapting.code (fun text => ([], style.hookBody [] text)) code)
  | test found => return test (← Adapting.test style [] found)
  | helper found => return helper (← Adapting.helper style [] found)

/-- Adapts all bodies of a part: the part as far as it was adapted, and the trail. -/
def adapt (style : BodyStyle) (node : Node) : Node × Trail :=
  (node.adapting style).run {}

end Node

end JasmineConversion
