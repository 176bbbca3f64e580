import JasmineConversion.Host.PlainValue
import JasmineConversion.Proofs.Body.Progress
import JasmineConversion.Proofs.Conversion.Surroundings
import JasmineConversion.Proofs.Suite.Captured
import JasmineConversion.Proofs.Suite.Reports

/-! # How conversions fail

A conversion that fails does so because of its source text, and points at a line with a snippet. No
scan starts at a wrong place and no template is faulty. What the reading and the adaptation take for
granted holds of every text: what a first look has found is there at the second, the directives of a
test case are an object, an assertion has the arguments that its rule asks for, and no repetition
reaches its bound. Neither memory nor the depth of nesting is limited here.
-/

namespace JasmineConversion

open Text Source Pattern

/-! ## What is taken for granted -/

/-- What the conversion of a source text takes for granted. -/
structure Unhindered (source : Text) : Prop where
  /-- A list of items is found again behind white space and comments, as there are none before it. -/
  items : ∀ index, (items? (source.drop index)).isSome = true → skip source index = .ok index
  /-- Directives that can be read are an object. -/
  directives : ∀ index text close literal, should? (source.drop index) = some text →
    matchBracket source (SuiteReader.indexOf source text) = .ok close →
    Literal.read (slice source (SuiteReader.indexOf source text) (close + 1)) = .ok literal →
    ∃ entries, literal = .object entries
  /-- A listed rule has all arguments that it looks at. -/
  arguments : ∀ space function rules rule,
    AssertionRule.entry? AssertionRule.namespaces space = some rules →
    AssertionRule.entry? rules function = some rule →
    ∀ arguments, rule.arity ≤ arguments.length → rule.expectation arguments = .ok none →
    ∃ keys others, arguments = keys :: others ∧ (startsWith ['['] keys && endsWith [']'] keys) = false
  wrappers : ∀ marker code bound, code.length < bound →
    Body.unwrapFrom marker bound code 0 = Body.unwrapMocksAt marker code
  calls : ∀ code bound, code.length < bound →
    AssertionCall.replaceFrom bound code 0 = AssertionCall.replaceAll code
  values : ∀ whole text depth offset, text.length < depth →
    Literal.readFrom whole depth text offset = Literal.readFrom whole (text.length + 1) text offset

/-- The key of the items of a suite starts where it stands. -/
theorem skip_of_items? {source : Text} {index : Nat}
    (found : (items? (source.drop index)).isSome = true) :
    skip source index = .ok index := by
  obtain ⟨text, list⟩ := Option.isSome_iff_exists.mp found
  obtain ⟨key, isKey, here⟩ := items?_eq_some_iff.mp list
  obtain ⟨tail, rfl, -, -⟩ := isKey.split
  apply SuiteReader.skip_of_stops
  rw [here]
  exact (stops_cons _ _ _).mpr (by decide)

/-- The literal of directives that are found is an object. -/
theorem exists_object_of_should? {source text : Text} {index close : Nat} {literal : Literal}
    (found : should? (source.drop index) = some text)
    (matched : matchBracket source (SuiteReader.indexOf source text) = .ok close)
    (ran : Literal.read (slice source (SuiteReader.indexOf source text) (close + 1)) = .ok literal) :
    ∃ entries, literal = .object entries := by
  obtain ⟨key, -, here, braced⟩ := should?_eq_some_iff.mp found
  have opens := SuiteReader.opens_of_behind here braced
  obtain ⟨raw, spans, -⟩ := (matchBracket_eq_ok_iff opens).mp matched
  rw [spans.slice_eq] at ran
  exact Literal.exists_object_of_read ran

/-- No text holds up a reader. -/
theorem unhindered (source : Text) : Unhindered source where
  items _ found := skip_of_items? found
  directives _ _ _ _ found matched ran := exists_object_of_should? found matched ran
  arguments space function rules rule listed found arguments enough absent := by
    obtain ⟨spaceKey, listed⟩ := AssertionRule.exists_mem_of_entry? listed
    obtain ⟨ruleKey, member⟩ := AssertionRule.exists_mem_of_entry? found
    exact (AssertionRule.plain_of_mem listed member).reaches arguments enough absent
  wrappers _ _ _ enough := Body.unwrapMocksAt_of_bound enough
  calls _ _ enough := AssertionCall.replaceAll_of_bound enough
  values _ _ _ offset enough := Literal.readFrom_of_depth enough offset

/-! ## Failures -/

/-- An adaptation of what was captured fails for a reason that lies in a body, and its line is not
above the first. -/
theorem Container.adapt_reports {style : BodyStyle} {tree : Container} {error : SourceError} {text : Text}
    (fixture : '\\' ∉ style.fixture) (captured : ∀ inner ∈ tree.cases, inner.Captured 1 text)
    (failed : (tree.adapt style).2.failure = some error) : error.Reported := by
  have plain : ∀ inner ∈ tree.cases, ∀ helper ∈ inner.helpers, '\\' ∉ helper.name :=
    fun inner here helper member =>
      backslash_not_mem_of_identifier ((captured inner here).names helper member).2
  obtain ⟨done, failing, rest, inner, split, -, -, -, reported, rfl, -⟩ :=
    Container.exists_failing fixture plain failed
  have member : failing ∈ tree.placed := split ▸ List.mem_append_right _ List.mem_cons_self
  obtain ⟨owner, here, placed⟩ := List.mem_flatMap.mp member
  have line := ((captured owner here).codes failing placed).line_le
  obtain ⟨down, width⟩ := Int.eq_ofNat_of_zero_le (Int.sub_nonneg_of_le line)
  have moved : failing.code.line - 1 = (down : Int) := width
  rw [moved]
  exact reported.relocate down

/-- A text that cannot be read is not converted, for the same reason. -/
theorem convert_of_failed_read {settings : Settings} {source : Text} {error : SourceError}
    (failed : OuterContainer.read source = .error error) : convert settings source = .error error := by
  unfold OuterContainer.read at failed
  unfold convert Conversion.run
  split at failed
  · cases failed
  · next found cursor ran =>
    cases failed
    rw [ran]

/-- A conversion fails with a reported error only. -/
theorem convert_reports {settings : Settings} (sound : settings.Sound) (source : Text) :
    Reports SourceError.Reported (convert settings source) := by
  intro error failed
  cases ran : OuterContainer.read source with
  | error error' =>
    cases (convert_of_failed_read ran).symm.trans failed
    exact ⟨lineCount source, OuterContainer.read_reports source ran⟩
  | ok found =>
    rw [convert_of_read ran] at failed
    split at failed
    · next error' stopped =>
      cases failed
      exact Container.adapt_reports (backslash_not_mem_of_isIdentifier sound.fixture)
        (OuterContainer.captured_of_read ran) stopped
    · cases failed

/-- Whatever the source text and the validated settings are, a conversion gives a text, or it fails
for a reason that lies in the source text and points at a line of it with a snippet. A failure to read
the text is that of the conversion, and its line is one of the text. What the conversion takes for
granted holds. -/
theorem conversion_fails_in_source {ω : Type} {coercions : Coercions ω} {values : SettingValues ω}
    {settings : Settings}
    (valid : Settings.ofValues coercions values = .ok settings) (source : Text) :
    ((∃ output, convert settings source = .ok output) ∨
      ∃ error location, convert settings source = .error error ∧ error.cause.InSource ∧
        error.location = some location ∧ 1 ≤ location.line) ∧
    (∀ error, OuterContainer.read source = .error error →
      convert settings source = .error error ∧ error.cause.InSource ∧
        ∃ location, error.location = some location ∧ 1 ≤ location.line ∧
          location.line ≤ lineCount source) ∧
    Unhindered source := by
  have reports := convert_reports (Settings.sound_of_ofValues valid) source
  refine ⟨?_, fun error failed => ?_, unhindered source⟩
  · cases converted : convert settings source with
    | ok output => exact .inl ⟨output, rfl⟩
    | error error =>
      obtain ⟨lines, within⟩ := reports converted
      obtain ⟨location, located, first, -⟩ := within.location
      exact .inr ⟨error, location, rfl, within.cause, located, first⟩
  · obtain ⟨cause, located⟩ := OuterContainer.read_reports source failed
    exact ⟨convert_of_failed_read failed, cause, located⟩

/-- A test case with a test on the third line whose string is never closed. -/
def openCase : Text :=
  ("tests.a.add(\x7bname: 'b',\ntest_x: function() \x7b go(); \x7d,\n" ++
    "test_y: function() \x7b go( ' ); \x7d\x7d);").toList

/-- A test case with a test that calls an unknown assertion, on the third line. -/
def oddCase : Text :=
  "tests.a.add(\x7bname: 'b',\ntest_x: function() \x7b\n  Y.Assert.isOdd( 1 ); \x7d\x7d);".toList

/-- An open brace and an unknown assertion are reported on a line of the text. -/
theorem conversions_fail_in_openCase_and_oddCase :
    Settings.ofValues PlainValue.coercions [] = .ok {} ∧
      (∃ error location, OuterContainer.read openCase = .error error ∧
        convert {} openCase = .error error ∧
        error.cause.InSource ∧ error.location = some location ∧ 1 ≤ location.line ∧
        location.line ≤ lineCount openCase) ∧
      ∃ error location, convert {} oddCase = .error error ∧ error.cause.InSource ∧
        error.location = some location ∧ 1 ≤ location.line := by
  have valid : Settings.ofValues PlainValue.coercions [] = .ok {} := rfl
  have unread : (failure? (OuterContainer.read openCase)).any
      (·.cause = .unterminatedLiteral '\'') = true := by decide +kernel
  have refused : (failure? (convert {} oddCase)).any (fun _ => true) = true := by decide +kernel
  obtain ⟨error, failed, -⟩ := exists_eq_error_of_any unread
  obtain ⟨error', failed', -⟩ := exists_eq_error_of_any refused
  obtain ⟨-, reading, -⟩ := conversion_fails_in_source valid openCase
  obtain ⟨converted, cause, location, located, first, last⟩ := reading error failed
  refine ⟨valid, ⟨error, location, failed, converted, cause, located, first, last⟩, ?_⟩
  obtain ⟨⟨output, given⟩ | given, -, -⟩ := conversion_fails_in_source valid oddCase
  · cases given.symm.trans failed'
  · exact given

end JasmineConversion
