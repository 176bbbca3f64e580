import JasmineConversion.Host.PlainValue
import JasmineConversion.Proofs.Conversion.Surroundings
import JasmineConversion.Proofs.Settings.Validation
import JasmineConversion.Proofs.Spec.Globals
import JasmineConversion.Proofs.Spec.Tests
import JasmineConversion.Proofs.Suite.Captured

/-! # Tests of a converted test case

Every test of a test case is found again in its spec, in its place and with its own head, and
nothing else in the spec looks like a test at this depth. This holds whatever the bodies say.
-/

namespace JasmineConversion

open Text Source Pattern

/-- What is written on the lines of blocks holds no line feed. -/
structure TestCase.OnOneLine (found : TestCase) : Prop where
  name : '\n' ∉ found.name
  tests : ∀ test ∈ found.tests, '\n' ∉ test.name
  parameters : ∀ helper ∈ found.helpers, '\n' ∉ helper.parameters
  messages : ∀ entry ∈ (found.should.map (·.errors)).getD [], '\n' ∉ entry.2

instance (found : TestCase) : Decidable found.OnOneLine :=
  decidable_of_iff (_ ∧ _ ∧ _ ∧ _)
    ⟨fun ⟨name, tests, parameters, messages⟩ => ⟨name, tests, parameters, messages⟩,
      fun ⟨name, tests, parameters, messages⟩ => ⟨name, tests, parameters, messages⟩⟩

/-- An identifier holds no line feed. -/
theorem newline_not_mem_of_identifier {name : Text} (parts : ∀ c ∈ name, isIdentifierPart c = true) :
    '\n' ∉ name := by
  intro member
  have part := parts _ member
  rw [isIdentifierPart_of_isBlank (by decide)] at part
  cases part

/-- A message that a test must throw is on one line if all messages are. -/
theorem TestCase.OnOneLine.expectedError {found : TestCase} (single : found.OnOneLine) {test message : Text}
    (expected : found.should.bind (·.expectedError test) = some message) : '\n' ∉ message := by
  obtain ⟨should, here, given⟩ := Option.bind_eq_some_iff.mp expected
  obtain ⟨entry, isEntry, rfl⟩ := Option.map_eq_some_iff.mp given
  apply single.messages entry
  rw [here]
  exact List.mem_of_find?_eq_some isEntry

/-- Helper methods are read with the names of identifiers. -/
theorem OuterText.identifier_of_mem {dialect : Dialect} {line : Nat} {rest text indent : Text}
    {inner : TestCase} (written : OuterText dialect line rest text indent (.testCase inner)) {helper : Helper}
    (member : helper ∈ inner.helpers) : Identifier helper.name :=
  (written.captured inner List.mem_cons_self).names helper member

/-! ## The spec in the converted text -/

/-- A list of global names ends in front of an indent and a character that is no asterisk. -/
theorem Globals.resumes_of_indent {unit : Text} (isUnit : IsUnit unit) (count : Nat) {c : Char}
    (solid : isBlank c = false) (other : '*' ≠ c) (rest : Text) :
    Globals.Resumes (repeated count unit ++ c :: rest) := by
  have blank : isBlankText (repeated count unit) = true :=
    isBlankText_iff.mpr fun d member => isBlank_of_isIndent (isUnit.indents d (mem_of_mem_repeated member))
  unfold Globals.Resumes
  rw [trimStart_append blank ((stops_cons _ _ _).mpr solid)]
  simp [after?, other]

/-- The spec for a test case is kept apart from a list of global names outside it. -/
theorem Spec.keepsApart_write {unit fixture : Text} (isUnit : IsUnit unit) (level : Nat) {found : TestCase}
    (single : '\n' ∉ found.name)
    (absent : Globals.find? (write ⟨unit, level, fixture⟩ (.testCase found)) = none) :
    Globals.KeepsApart (write ⟨unit, level, fixture⟩ (.testCase found))
      (repeated level unit ++ callTail) := by
  have written := @lines_write _ fixture isUnit level _ single
  rw [Line.render_of_ne_nil level 0 (show callTail ≠ [] by decide),
    Line.render_of_ne_nil level 0 (containerHead_ne_nil found.name)] at written
  have whole := unlines_lines (write ⟨unit, level, fixture⟩ (.testCase found))
  refine ⟨?_, ?_, ?_, ?_, absent⟩
  · rw [← whole, written, unlines_append_singleton (by simp)]
    exact ⟨_, rfl⟩
  · intro post
    rw [← whole, written, List.cons_append, unlines_cons (by simp), List.append_assoc, List.append_assoc]
    exact Globals.resumes_of_indent isUnit level (by decide) (by decide) _
  · intro post
    rw [List.append_assoc]
    exact Globals.resumes_of_indent isUnit level (by decide) (by decide) _
  · intro member
    rcases List.mem_append.mp member with member | member
    · exact absurd (isUnit.indents _ (mem_of_mem_repeated member)) (by decide)
    · revert member
      decide

/-- A conversion succeeds with the spec for the adapted container in its place. -/
theorem exists_spec_of_convert {settings : Settings} {source output : Text} {found : OuterContainer}
    {inner : TestCase} (ran : OuterContainer.read source = .ok found) (isCase : found.tree = .testCase inner)
    (converted : convert settings source = .ok output) :
    ∃ adapted, inner.Adapts settings.bodyStyle (inner.helpers.map (·.name)) adapted ∧
      output = found.splice settings source (Spec.write (settings.specStyle found) (.testCase adapted)) := by
  rw [convert_of_read ran, isCase] at converted
  cases failed : ((Container.testCase inner).adapt settings.bodyStyle).2.failure with
  | some error =>
    rw [failed] at converted
    cases converted
  | none =>
    obtain ⟨adapted, isAdapted, adapts⟩ := Adapting.testCase_adapts failed
    rw [failed, isAdapted] at converted
    cases converted
    exact ⟨adapted, adapts, rfl⟩

/-- A spec stays whole in the converted text unless the list of global names is changed inside it. -/
theorem OuterContainer.exists_splice (found : OuterContainer) {settings : Settings} {source spec last : Text}
    (fresh : source.take found.start = [] ∨ endsWith ['\n'] (source.take found.start) = true)
    (kept : settings.convertGlobals = false ∨ Globals.KeepsApart spec last) :
    ∃ lead tail, found.splice settings source spec = lead ++ spec ++ tail := by
  unfold splice
  by_cases globals : settings.convertGlobals = true
  · rw [if_pos globals]
    rcases kept with without | apart
    · rw [without] at globals
      cases globals
    · exact apart.exists_convert fresh _
  · rw [if_neg globals]
    exact ⟨_, _, rfl⟩

/-- Names, parameters and messages stay on one line when bodies are adapted. -/
theorem TestCase.OnOneLine.adapts {style : BodyStyle} {names : List Text} {before after : TestCase}
    (single : before.OnOneLine) (adapts : before.Adapts style names after) : after.OnOneLine := by
  refine ⟨adapts.name ▸ single.name, ?_, ?_, adapts.should ▸ single.messages⟩
  · rw [adapts.tests]
    simpa using single.tests
  · rw [adapts.helpers]
    simpa using single.parameters

/-- Converting a test case keeps its tests: each has its block in the spec, in their order and with
the head and the expected error that the directives ask for, and no other line of the spec has the
indent and the words of such a head. -/
theorem tests_kept_in_order {ω : Type} {coercions : Coercions ω} {values : SettingValues ω}
    {settings : Settings}
    (valid : Settings.ofValues coercions values = .ok settings) {source : Text} {found : OuterContainer}
    (ran : OuterContainer.read source = .ok found) {inner : TestCase}
    (isCase : found.tree = .testCase inner) (single : inner.OnOneLine) {output : Text}
    (converted : convert settings source = .ok output) :
    let level := settings.indentLevel.getD found.indentLevel
    ∃ (spec : Text) (front : List Text) (body : Test → Text),
      output = found.splice settings source spec ∧
      (settings.convertGlobals = false ∨ Globals.find? spec = none →
        ∃ lead tail, output = lead ++ spec ++ tail) ∧
      (lines spec).filter (Spec.opensTestAt settings.indentUnit (level + 1)) =
        inner.tests.map (fun test =>
          repeated (level + 1) settings.indentUnit ++ Spec.testHead inner.should test.name) ∧
      lines spec = front ++ inner.tests.flatMap (fun test =>
        [[]] ++ Spec.testLines settings.indentUnit (level + 1) inner.should test.name (body test) ++ [[]]) ++
        [repeated level settings.indentUnit ++ Spec.callTail] ∧
      ∀ test ∈ inner.tests, ∃ raw, body test = dedent raw ∧
        (settings.bodyStyle.testBody (inner.helpers.map (·.name)) test.code.body).2 = .ok raw := by
  intro level
  have sound := Settings.sound_of_ofValues valid
  have isUnit : IsUnit settings.indentUnit := ⟨sound.unit_ne_nil, sound.unit_indents⟩
  have fixtureSingle : '\n' ∉ settings.fixtureName := by
    have named := sound.fixture
    rw [SettingValue.isIdentifier, Bool.and_eq_true, List.all_eq_true] at named
    exact newline_not_mem_of_identifier named.2
  obtain ⟨adapted, adapts, rfl⟩ := exists_spec_of_convert ran isCase converted
  have adaptedSingle := single.adapts adapts
  obtain ⟨anchor, region, anchored, -, -, written⟩ := SuiteReader.exists_outerText_of_read ran
  rw [isCase] at written
  -- Helpers are written with their names, which are the identifiers of the source.
  have helpers : ∀ helper ∈ adapted.helpers, '\n' ∉ helper.name ∧ '\n' ∉ helper.parameters := by
    intro helper member
    refine ⟨?_, adaptedSingle.parameters helper member⟩
    rw [adapts.helpers] at member
    obtain ⟨before, isBefore, rfl⟩ := List.mem_map.mp member
    exact newline_not_mem_of_identifier (written.identifier_of_mem isBefore).2
  obtain ⟨front, wholeLines⟩ := @Spec.lines_write_tests _ settings.fixtureName isUnit level _
    adaptedSingle.name adaptedSingle.tests fun _ _ => adaptedSingle.expectedError
  have heads := Spec.filter_lines_write isUnit level adaptedSingle.name fixtureSingle helpers
    adaptedSingle.tests
  rw [adapts.tests, adapts.should] at wholeLines heads
  rw [List.map_map] at heads
  rw [List.flatMap_map] at wholeLines
  have style : settings.specStyle found = ⟨settings.indentUnit, level, settings.fixtureName⟩ := rfl
  rw [style]
  clear_value level
  refine ⟨_, front, fun test => settings.bodyStyle.adaptedBody (inner.helpers.map (·.name)) test.code.body,
    rfl, ?_, ?_, ?_, ?_⟩
  · intro kept
    exact found.exists_splice (fresh_of_findAnchor anchored)
      (kept.imp_right (Spec.keepsApart_write isUnit level adaptedSingle.name))
  · exact heads
  · exact wholeLines
  · intro test member
    obtain ⟨raw, adaptedRaw⟩ := adapts.succeeds test member
    refine ⟨raw, ?_, adaptedRaw⟩
    simp only [BodyStyle.adaptedBody, adaptedRaw]

/-- The test case that a container is. -/
def Container.testCase? : Container → Option TestCase
  | .suite _ _ => none
  | .testCase inner => some inner

/-- A container with a property of test cases is a test case with it. -/
theorem Container.exists_of_testCase?_any {tree : Container} {holds : TestCase → Bool}
    (found : tree.testCase?.any holds = true) : ∃ inner, tree = .testCase inner ∧ holds inner = true := by
  cases tree with
  | suite name children => cases found
  | testCase inner => exact ⟨inner, rfl, found⟩

/-- A test case with directives, and with a body that has the words of a test on its own line. -/
def directedCase : Text :=
  ("tests.a.add(\x7bname: 'b', _should: \x7bignore: \x7bx: true\x7d, error: \x7by: 'no'\x7d\x7d,\n" ++
    "test_x: function() \x7b\n    go();\nit( 'z', 1 );\n\x7d, test_y: function() \x7b go(); \x7d\x7d);").toList

/-- Both tests of the case have their heads in its spec, and a line of a body that looks like a head
does not count. -/
theorem tests_kept_of_directed_case :
    ∃ found inner output spec, Settings.ofValues PlainValue.coercions [] = .ok {} ∧
      OuterContainer.read directedCase = .ok found ∧ found.tree = .testCase inner ∧ inner.OnOneLine ∧
      convert {} directedCase = .ok output ∧ output = found.splice {} directedCase spec ∧
      (lines spec).filter (Spec.opensTestAt ['\t'] 1) =
        ["\txit( \"x\", function() \x7b".toList, "\tit( \"y\", function() \x7b".toList] := by
  have valid : Settings.ofValues PlainValue.coercions [] = .ok {} := rfl
  obtain ⟨found, ran, holds⟩ := exists_eq_ok_of_any (by decide +kernel :
    (OuterContainer.read directedCase).toOption.any (fun found => found.tree.testCase?.any fun inner =>
      found.indentLevel = 0 && decide inner.OnOneLine &&
        inner.tests.map (fun test => repeated 1 ['\t'] ++ Spec.testHead inner.should test.name) =
          ["\txit( \"x\", function() \x7b".toList, "\tit( \"y\", function() \x7b".toList]) = true)
  obtain ⟨output, converted, -⟩ := exists_eq_ok_of_any (by decide +kernel :
    (convert {} directedCase).toOption.any (fun _ => true) = true)
  obtain ⟨inner, isCase, holds⟩ := Container.exists_of_testCase?_any holds
  simp only [Bool.and_eq_true, decide_eq_true_eq] at holds
  obtain ⟨⟨level, single⟩, heads⟩ := holds
  obtain ⟨spec, -, -, spliced, -, kept, -⟩ := tests_kept_in_order valid ran isCase single converted
  refine ⟨found, inner, output, spec, valid, ran, isCase, single, converted, spliced, ?_⟩
  simp only [Option.getD_none, level] at kept
  exact kept.trans heads

/-- A test case with a test whose name reads like a list of global names. -/
def listedCase : Text :=
  "tests.a.add(\x7bname: 'b', '/*global Ext */ x': function() \x7b go(); \x7d\x7d);".toList

/-- A list of global names inside the name of a test is brought up to date like any other, and the spec
loses the name: its only test has a line in the spec, but none of the converted text is that line. -/
theorem name_lost_of_listedCase :
    ∃ found inner output, OuterContainer.read listedCase = .ok found ∧ found.tree = .testCase inner ∧
      inner.OnOneLine ∧ inner.tests.map (·.name) = ["/*global Ext */ x".toList] ∧
      convert {} listedCase = .ok output ∧
      "\tit( \"/*global Ext */ x\", function() \x7b".toList ∉ lines output := by
  obtain ⟨found, ran, holds⟩ := exists_eq_ok_of_any (by decide +kernel :
    (OuterContainer.read listedCase).toOption.any (fun found => found.tree.testCase?.any fun inner =>
      decide inner.OnOneLine && inner.tests.map (·.name) = ["/*global Ext */ x".toList]) = true)
  obtain ⟨output, converted, lost⟩ := exists_eq_ok_of_any (by decide +kernel :
    (convert {} listedCase).toOption.any (fun output =>
      "\tit( \"/*global Ext */ x\", function() \x7b".toList ∉ lines output) = true)
  obtain ⟨inner, isCase, holds⟩ := Container.exists_of_testCase?_any holds
  simp only [Bool.and_eq_true, decide_eq_true_eq] at holds lost
  exact ⟨found, inner, output, ran, isCase, holds.1, holds.2, converted, lost⟩

end JasmineConversion
