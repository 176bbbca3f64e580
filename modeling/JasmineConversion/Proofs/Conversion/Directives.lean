import JasmineConversion.Proofs.Conversion.Tests
import JasmineConversion.Proofs.Spec.Blocks
import JasmineConversion.Proofs.Suite.Visitor
import JasmineConversion.Proofs.Suite.Written

/-! # Directives in a converted text

Every test of a converted text, in whatever suite, has its block in the spec. Directives act on it by
its name: the phrase that it is written under, or what follows the mark in its identifier. It is
disabled if and only if its name is among the tests to ignore, and its body is expected to throw a
message if and only if the message is given under its name. The key of a test says nothing by itself.
-/

namespace JasmineConversion

open Text Pattern

namespace Spec

/-- The block of a test with a name and a body: whether it is disabled, and the message that its body is
expected to throw, if any. -/
def testBlock (ignored : Bool) (expected : Option Text) (name body : Text) : List Line :=
  titledBlock (if ignored then "xit".toList else "it".toList) name
    (match expected with
      | some message => functionBlock "expect".toList (Line.ofBody body)
          ("\x7d ).toThrow( ".toList ++ quote message ++ " );".toList)
      | none => Line.ofBody body)

/-- The block of a test case: its hooks and its helper methods, and behind these given blocks, set
apart. -/
def caseBlock (fixture : Text) (found : TestCase) (blocks : List (List Line)) : List Line :=
  titledBlock "describe".toList found.name
    (hooks fixture found ++ found.helpers.flatMap (fun found => apart (helper found)) ++
      blocks.flatMap apart)

/-- A test is written as its block. -/
theorem test_eq_testBlock (should : Option Should) (found : Test) :
    test should found = testBlock (should.any (·.isIgnored found.name))
      (should.bind (·.expectedError found.name)) found.name found.code.body :=
  rfl

/-- The block of a test has a head and a tail. -/
theorem testBlock_ne_nil (ignored : Bool) (expected : Option Text) (name body : Text) :
    testBlock ignored expected name body ≠ [] :=
  Line.block_ne_nil _ _ _

end Spec

/-- Whether the directives of a test case disable what is named so. -/
def TestCase.disables (found : TestCase) (name : Text) : Bool :=
  found.should.any (·.isIgnored name)

/-- The message that the directives of a test case expect from what is named so. -/
def TestCase.expects (found : TestCase) (name : Text) : Option Text :=
  found.should.bind (·.expectedError name)

open Line Spec

/-- Each test case of a tree that could be adapted is adapted on its own. -/
theorem adapts_of_unfailed {style : BodyStyle} {tree : Container}
    (unfailed : (tree.adapt style).2.failure = none) {inner : TestCase} (isCase : inner ∈ tree.cases) :
    inner.Adapts style (inner.helpers.map (·.name)) (inner.adapt style).1 :=
  (Adapting.testCase_delivers style inner {}
    ((Casewise.container style tree).succeeds.mp unfailed inner isCase)).2

/-- An adapted test case is written as the blocks of its tests, in order and nothing else behind its
hooks and helper methods. -/
theorem testCase_eq_caseBlock {style : BodyStyle} {names : List Text} {inner adapted : TestCase}
    (adapts : inner.Adapts style names adapted) (fixture : Text) :
    testCase fixture adapted = caseBlock fixture adapted (inner.tests.map fun test =>
      testBlock (inner.disables test.name) (inner.expects test.name) test.name
        (style.adaptedBody names test.code.body)) := by
  unfold testCase caseBlock
  rw [adapts.tests, adapts.should, List.flatMap_map, List.flatMap_map]
  rfl

/-- The body of a test that could be adapted is what its adaptation gives, dedented. -/
theorem TestCase.Adapts.exists_adaptedBody {style : BodyStyle} {names : List Text} {inner adapted : TestCase}
    (adapts : inner.Adapts style names adapted) {test : Test} (isTest : test ∈ inner.tests) :
    ∃ raw, style.adaptedBody names test.code.body = dedent raw ∧
      (style.testBody names test.code.body).2 = .ok raw := by
  obtain ⟨raw, ran⟩ := adapts.succeeds test isTest
  exact ⟨raw, by simp only [BodyStyle.adaptedBody, ran], ran⟩

/-- The spec for a tree whose test cases are changed has the block of each test of a test case that is
adapted. -/
theorem exists_testBlock {style : BodyStyle} {names : List Text} {tree : Container}
    (change : TestCase → TestCase) {inner : TestCase} (isCase : inner ∈ tree.cases)
    (adapts : inner.Adapts style names (change inner)) {test : Test} (isTest : test ∈ inner.tests)
    (unit fixture : Text) (level : Int) :
    ∃ depth front back, write ⟨unit, level, fixture⟩ (tree.mapCases change) =
        front ++ renderAll unit (level + (depth : Nat)) (testBlock (inner.disables test.name)
          (inner.expects test.name) test.name (style.adaptedBody names test.code.body)) ++ back ∧
      (front = [] ∨ endsWith ['\n'] front = true) ∧ (back = [] ∨ startsWith ['\n'] back = true) := by
  have isAdapted :
      (⟨test.name, style.adaptedCode names test.code⟩ : Test) ∈ (change inner).tests := by
    rw [adapts.tests]
    exact List.mem_map.mpr ⟨test, isTest, rfl⟩
  obtain ⟨depth, inside⟩ := exists_inside_container fixture change isCase
  have block := (inside_testCase fixture isAdapted).trans inside
  rw [test_eq_testBlock, adapts.should] at block
  obtain ⟨front, back, laidOut, fresh, ended⟩ :=
    block.exists_renderAll (testBlock_ne_nil _ _ _ _) unit level
  exact ⟨1 + depth, front, back, laidOut, fresh, ended⟩

/-- **Directives act on the tests of a converted text by their names.** The spec is written for the tree
with each test case adapted, and a test case is written as its hooks, its helper methods and exactly one
block for each of its tests, in order. Every test, written under a phrase that is its name or under an
identifier that is its name behind a mark, has its block in the spec, with its own adapted body. The
block is disabled if and only if the literal of the directives has its name among the tests to ignore. It
expects the body to throw a message if and only if the literal has the message under its name among the
errors. -/
theorem directives_act_on_names {settings : Settings} {source output : Text}
    (converted : convert settings source = .ok output) :
    ∃ (found : OuterContainer) (spec : Text) (adapted : TestCase → TestCase),
      OuterContainer.read source = .ok found ∧ output = found.splice settings source spec ∧
      spec = write (settings.specStyle found) (found.tree.mapCases adapted) ∧
      ∀ inner ∈ found.tree.cases, ∃ members directives, ∃ body : Test → Text,
        inner.WrittenIn .accepted source members ∧ DirectivesIn source members directives ∧
        inner.Adapts settings.bodyStyle (inner.helpers.map (·.name)) (adapted inner) ∧
        testCase settings.fixtureName (adapted inner) =
          caseBlock settings.fixtureName (adapted inner) (inner.tests.map fun test =>
            testBlock (inner.disables test.name) (inner.expects test.name) test.name (body test)) ∧
        ∀ test, Member.test test ∈ members →
          test ∈ inner.tests ∧ ∃ raw depth front back,
            spec = front ++ renderAll settings.indentUnit ((settings.specStyle found).level + (depth : Nat))
              (testBlock (inner.disables test.name) (inner.expects test.name) test.name (dedent raw)) ++
                back ∧
            (front = [] ∨ endsWith ['\n'] front = true) ∧ (back = [] ∨ startsWith ['\n'] back = true) ∧
            body test = dedent raw ∧
            (settings.bodyStyle.testBody (inner.helpers.map (·.name)) test.code.body).2 = .ok raw ∧
            (inner.disables test.name = true ↔ ∃ literal ∈ directives, literal.Ignores test.name) ∧
            ∀ message, inner.expects test.name = some message ↔
              ∃ literal ∈ directives, literal.Expects test.name message := by
  obtain ⟨found, ran, unfailed, spliced⟩ := exists_splice_of_convert converted
  obtain ⟨anchor, region, -, spans, -, written⟩ := SuiteReader.exists_outerText_of_read ran
  have within : region <:+: source :=
    ⟨source.take found.start, source.drop found.stop, by
      rw [List.append_assoc, ← spans.here, List.take_append_drop]⟩
  have casewise := (Casewise.container settings.bodyStyle found.tree).result unfailed
  refine ⟨found, _, fun inner => (inner.adapt settings.bodyStyle).1, ran, spliced, congrArg _ casewise,
    fun inner isCase => ?_⟩
  have adapts := adapts_of_unfailed unfailed isCase
  obtain ⟨members, inRegion⟩ := written.exists_writtenIn inner isCase
  have inSource := inRegion.of_infix within
  obtain ⟨directives, isLiteral, agrees⟩ := inSource.exists_directives
  refine ⟨members, directives, _, inSource, isLiteral, adapts,
    testCase_eq_caseBlock adapts settings.fixtureName, fun test isTest => ?_⟩
  -- The tests of a test case are those among its members.
  have member : test ∈ inner.tests := by
    rw [inSource.comprises.tests]
    exact List.mem_filterMap.mpr ⟨_, isTest, rfl⟩
  obtain ⟨raw, isRaw, ran⟩ := adapts.exists_adaptedBody member
  obtain ⟨depth, front, back, laidOut, fresh, ended⟩ :=
    exists_testBlock (fun inner => (inner.adapt settings.bodyStyle).1) isCase adapts member
      settings.indentUnit settings.fixtureName (settings.specStyle found).level
  rw [isRaw] at laidOut
  refine ⟨member, raw, depth, front, back, ?_, fresh, ended, isRaw, ran, agrees test.name⟩
  rw [← laidOut, ← casewise]
  rfl

/-- A suite with a test case whose directives name its tests, in each of the ways to write a test. -/
def directedSuite : Text :=
  ("tests.a.add(\x7bname: 's', ttype: 'suite', items: [\x7bname: 'b',\n" ++
    "_should: \x7bignore: \x7bFoo: true, 'is a phrase': true\x7d, error: \x7bbar: 'no'\x7d\x7d,\n" ++
    "testFoo: function() \x7b go(); \x7d,\ntest_bar: function() \x7b fail(); \x7d,\n" ++
    "'is a phrase': function() \x7b go(); \x7d\x7d]\x7d);").toList

/-- The second test of the suite expects its message and is not disabled. -/
theorem directives_act_in_directedSuite :
    ∃ output found spec inner, convert {} directedSuite = .ok output ∧
      OuterContainer.read directedSuite = .ok found ∧ output = found.splice {} directedSuite spec ∧
      inner ∈ found.tree.cases ∧ inner.tests.map (·.name) = ["Foo".toList, "bar".toList, "is a phrase".toList] ∧
      ∃ depth front back, spec = front ++ renderAll ['\t'] ((({} : Settings).specStyle found).level + (depth : Nat))
          (testBlock false (some "no".toList) "bar".toList "fail();".toList) ++ back ∧
        (front = [] ∨ endsWith ['\n'] front = true) ∧ (back = [] ∨ startsWith ['\n'] back = true) := by
  have evaluated : ((convert {} directedSuite).toOption.any (fun _ => true) &&
      (OuterContainer.read directedSuite).toOption.any (fun found => found.tree.cases.any fun inner =>
        decide (inner.tests.map (·.name) = ["Foo".toList, "bar".toList, "is a phrase".toList] ∧
          inner.helpers = [] ∧ inner.disables "bar".toList = false ∧
          inner.expects "bar".toList = some "no".toList) &&
        inner.tests.any fun test =>
          decide (test.name = "bar".toList ∧ test.code.body = "fail();".toList))) = true := by
    decide +kernel
  obtain ⟨succeeds, holds⟩ := Bool.and_eq_true_iff.mp evaluated
  obtain ⟨output, converted, -⟩ := exists_eq_ok_of_any succeeds
  obtain ⟨found, spec, adapted, ran, spliced, -, directed⟩ := directives_act_on_names converted
  obtain ⟨found', ran', holds⟩ := exists_eq_ok_of_any holds
  obtain rfl : found = found' := Except.ok.inj (ran.symm.trans ran')
  obtain ⟨inner, isCase, holds⟩ := List.any_eq_true.mp holds
  obtain ⟨holds, some⟩ := Bool.and_eq_true_iff.mp holds
  obtain ⟨names, unhelped, enabled, expected⟩ := of_decide_eq_true holds
  obtain ⟨test, isTest, holds⟩ := List.any_eq_true.mp some
  obtain ⟨name, body⟩ := of_decide_eq_true holds
  obtain ⟨members, directives, bodies, written, -, -, -, placed⟩ := directed inner isCase
  have isMember : Member.test test ∈ members := by
    rw [written.comprises.tests] at isTest
    obtain ⟨member, isMember, isTest⟩ := List.mem_filterMap.mp isTest
    cases member <;> cases isTest
    exact isMember
  obtain ⟨-, raw, depth, front, back, laidOut, fresh, ended, -, adapts, -⟩ := placed test isMember
  have same : (({} : Settings).bodyStyle.testBody [] "fail();".toList).2 = .ok "fail();".toList := by
    decide +kernel
  rw [unhelped, body, List.map_nil, same] at adapts
  obtain rfl := Except.ok.inj adapts
  rw [name, enabled, expected] at laidOut
  exact ⟨output, found, spec, inner, converted, ran, spliced, isCase, names, depth, front, back, laidOut,
    fresh, ended⟩

/-- A test case whose directives hold the keys of its tests instead of their names. -/
def keyedCase : Text :=
  ("tests.a.add(\x7bname: 'b', _should: \x7bignore: \x7btestFoo: true\x7d, error: \x7btest_bar: 'no'\x7d\x7d,\n" ++
    "testFoo: function() \x7b go(); \x7d, test_bar: function() \x7b fail(); \x7d\x7d);").toList

/-- The converted text of the test case. -/
def keyedSpec : Text :=
  ("/*global _, describe, beforeEach, afterEach, it, expect */\ndescribe( \"a.b\", function() \x7b\n\n" ++
    "\tit( \"Foo\", function() \x7b\n\t\tgo();\n\t\x7d );\n\n\n" ++
    "\tit( \"bar\", function() \x7b\n\t\tfail();\n\t\x7d );\n\n\x7d );").toList

/-- Directives under the keys of tests that are identifiers have no effect: no test is disabled, and no
error is expected. -/
theorem keys_have_no_effect_in_keyedCase :
    ∃ found inner, OuterContainer.read keyedCase = .ok found ∧ found.tree = .testCase inner ∧
      inner.tests.map (·.name) = ["Foo".toList, "bar".toList] ∧
      inner.should.map (·.ignored) = some ["testFoo".toList] ∧
      inner.should.map (·.errors) = some [("test_bar".toList, "no".toList)] ∧
      convert {} keyedCase = .ok keyedSpec := by
  have evaluated : ((OuterContainer.read keyedCase).toOption.any (fun found =>
        found.tree.testCase?.any fun inner =>
          inner.tests.map (·.name) = ["Foo".toList, "bar".toList] &&
            inner.should.map (·.ignored) = some ["testFoo".toList] &&
            inner.should.map (·.errors) = some [("test_bar".toList, "no".toList)]) &&
      (convert {} keyedCase).toOption.any (fun output => output == keyedSpec)) = true := by
    decide +kernel
  obtain ⟨holds, written⟩ := Bool.and_eq_true_iff.mp evaluated
  obtain ⟨found, ran, holds⟩ := exists_eq_ok_of_any holds
  obtain ⟨inner, isCase, holds⟩ := Container.exists_of_testCase?_any holds
  obtain ⟨output, converted, same⟩ := exists_eq_ok_of_any written
  simp only [Bool.and_eq_true, decide_eq_true_eq] at holds
  exact ⟨found, inner, ran, isCase, holds.1.1, holds.1.2, holds.2, by rw [converted, eq_of_beq same]⟩

end JasmineConversion
