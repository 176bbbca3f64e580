import JasmineConversion.Host.PlainValue
import JasmineConversion.Proofs.Assertion.Refusals
import JasmineConversion.Proofs.Body.Carried
import JasmineConversion.Proofs.Conversion.Failure
import JasmineConversion.Proofs.Suite.BodyLines

/-! # The lines of refused assertion calls

A conversion stops at an assertion call without an expectation. Its line is counted in the body as far as it has been
rewritten: wrappers in front of the call are removed, and calls in front of it have given way to their expectations.
This is the line of the call in the source where these keep their line feeds.
-/

namespace JasmineConversion

open Text Source AssertionCall

/-- A body is refused for an assertion call. Once its references are rewritten the call stands behind `front`, and once
wrappers are removed as well, behind the calls of `sites`, which have expectations, and a gap. -/
structure BodyStyle.RefusesAt (style : BodyStyle) (names : List Text) (body space function : Text)
    (fault : AssertionFault) (adapted front : Text) (sites : List Site) (gap : Text) : Prop where
  adapts : style.hookBody names body = .ok adapted
  refused : ∃ c rest, Body.unwrapMocks style.marker adapted = .ok (source sites gap ++ c :: rest) ∧
    Refuses space function fault none sites gap (c :: rest) ∧ front ++ [c] <+: adapted ∧
    Body.Carried style.marker c adapted 0 front (source sites gap ++ c :: rest) (source sites gap)
  unmoved : Body.unwrapMocks style.marker adapted = .ok adapted → front = source sites gap

variable {style : BodyStyle} {names : List Text} {body space function : Text} {fault : AssertionFault}
  {error : SourceError}

/-- A body that is refused for an assertion call is refused at the call, and the error points behind what the text in
front of the call has become. -/
theorem BodyStyle.exists_refusesAt (fixture : Pattern.Identifier style.fixture)
    (named : ∀ name ∈ names, Pattern.Identifier name) (failed : (style.testBody names body).2 = .error error)
    (isAssertion : error.cause = .assertion space function fault) :
    ∃ adapted front sites gap rest, style.RefusesAt names body space function fault adapted front sites gap ∧
      error = .ofIndex (.assertion space function fault) (written sites gap ++ rest) (written sites gap).length := by
  have adapts := hookBody_eq fixture named body
  generalize replaceAll _ _ = adapted at adapts
  simp only [testBody, adapts] at failed
  rcases exceptBind_eq_error_iff.mp failed with unmatched | ⟨unwrapped, ran, failed⟩
  · exact absurd isAssertion ((Body.unwrapMocksAt_reports _ adapted unmatched).ne_assertion space function fault)
  · obtain ⟨sites, gap, call, rfl, refuses, pointed⟩ := exists_refuses_of_replaceAll failed isAssertion
    obtain ⟨c, rest, rfl⟩ := refuses.exists_cons
    have place : source sites gap ++ [c] <+: source sites gap ++ c :: rest := ⟨rest, by simp⟩
    obtain ⟨front, here, carried, stays⟩ := Body.exists_carried (by omega) ran place
    refine ⟨adapted, front, sites, gap, c :: rest, ⟨adapts, ⟨c, rest, ran, refuses, here, carried⟩, ?_⟩, pointed⟩
    intro same
    exact stays (Except.ok.inj (ran.symm.trans same))

/-- The adaptation of captured code that is refused for an assertion call has come to a helper method or a test whose
body is refused, and the line of the error is counted from that of the body. -/
theorem Container.exists_refusesAt {tree : Container} {text : Text}
    (fixture : SettingValue.isIdentifier style.fixture = true)
    (captured : ∀ inner ∈ tree.cases, inner.Captured 1 text) (failed : (tree.adapt style).2.failure = some error)
    (isAssertion : error.cause = .assertion space function fault) :
    ∃ placed adapted front sites gap index, placed ∈ tree.placed ∧ (placed.role = .helper ∨ placed.role = .test) ∧
      style.RefusesAt placed.names placed.code.body space function fault adapted front sites gap ∧
      placed.StandsOn style text adapted front index ∧
      error.location.map (·.line) = some (placed.code.line + (written sites gap).count '\n') := by
  have identifier := identifier_of_isIdentifier fixture
  have plain : ∀ inner ∈ tree.cases, ∀ helper ∈ inner.helpers, '\\' ∉ helper.name :=
    fun inner here helper member => backslash_not_mem_of_identifier ((captured inner here).names helper member).2
  obtain ⟨done, failing, rest, inner, split, role, -, refused, -, rfl, -⟩ :=
    Container.exists_failing (backslash_not_mem_of_isIdentifier fixture) plain failed
  have member : failing ∈ tree.placed := split ▸ List.mem_append_right _ List.mem_cons_self
  obtain ⟨owner, here, isPlaced⟩ := List.mem_flatMap.mp member
  obtain ⟨owner', here', names⟩ := Container.names_of_mem_placed member
  have named : ∀ name ∈ failing.names, Pattern.Identifier name := by
    rw [names, List.forall_mem_map]
    exact (captured owner' here').names
  -- Only a hook loses its superclass call, so the body is rewritten as it was captured.
  have noHook : failing.role.isHook = false := by
    rcases role with isHelper | isTest
    · rw [isHelper]
      rfl
    · rw [isTest]
      rfl
  simp only [PlacedCode.rewrite, PlacedCode.body, noHook, Bool.false_and, Bool.false_eq_true, if_false] at refused
  obtain ⟨adapted, front, sites, gap, call, refusesAt, rfl⟩ :=
    BodyStyle.exists_refusesAt identifier named refused isAssertion
  obtain ⟨c, -, -, -, begins, -⟩ := refusesAt.refused
  obtain ⟨index, standsOn⟩ := PlacedCode.exists_standsOn identifier named ((captured owner here).codes failing isPlaced)
    refusesAt.adapts ((List.prefix_append front [c]).trans begins)
  refine ⟨failing, adapted, front, sites, gap, index, member, role, refusesAt, standsOn, ?_⟩
  simp only [SourceError.relocate, SourceError.ofIndex, Location.ofIndex, Option.map_some, lineAt, List.take_left]
  congr 1
  omega

/-- A conversion that stops at an assertion call without an expectation has come to a helper method or a test whose
body is refused at the call. The line of the error is that of the body and the line feeds in what the text in front of
the call has become. It is the line of the source where the call stands exactly where the text had as many before, and
so where it loses none with the wrappers and each call in it has as many as its expectation. -/
theorem assertion_fault_line {ω : Type} {coercions : Coercions ω} {values : SettingValues ω}
    {settings : Settings} {source : Text}
    (valid : Settings.ofValues coercions values = .ok settings) (failed : convert settings source = .error error)
    (isAssertion : error.cause = .assertion space function fault) :
    ∃ found placed adapted front sites gap index, OuterContainer.read source = .ok found ∧
      placed ∈ found.tree.placed ∧ (placed.role = .helper ∨ placed.role = .test) ∧
      settings.bodyStyle.RefusesAt placed.names placed.code.body space function fault adapted front sites gap ∧
      placed.StandsOn settings.bodyStyle source adapted front index ∧
      error.location.map (·.line) = some (placed.code.line + (written sites gap).count '\n') ∧
      (error.location.map (·.line) = some ((index : Int) + 1) ↔ front.count '\n' = (written sites gap).count '\n') ∧
      (front.count '\n' = (AssertionCall.source sites gap).count '\n' →
        (∀ site ∈ sites, site.expectation.count '\n' = site.call.count '\n') →
        error.location.map (·.line) = some ((index : Int) + 1)) := by
  have sound := Settings.sound_of_ofValues valid
  cases ran : OuterContainer.read source with
  | error unread =>
    -- Assertion calls are looked for only once the source has been read.
    cases (convert_of_failed_read ran).symm.trans failed
    rcases OuterContainer.cause_of_read ran with ⟨-, missing⟩ | inCode
    · cases missing.symm.trans isAssertion
    · exact absurd isAssertion (inCode.ne_assertion space function fault)
  | ok found =>
    rw [convert_of_read ran] at failed
    split at failed
    · next error' stopped =>
      cases failed
      obtain ⟨placed, adapted, front, sites, gap, index, member, role, refusesAt, standsOn, line⟩ :=
        Container.exists_refusesAt sound.fixture (OuterContainer.captured_of_read ran) stopped isAssertion
      have numbered := standsOn.numbered
      have exact : error.location.map (·.line) = some ((index : Int) + 1) ↔
          front.count '\n' = (written sites gap).count '\n' := by
        rw [line, Option.some.injEq]
        omega
      refine ⟨found, placed, adapted, front, sites, gap, index, rfl, member, role, refusesAt, standsOn, line, exact, ?_⟩
      intro unwrapped kept
      exact exact.mpr (unwrapped.trans (count_written kept).symm)
    · cases failed

/-- The error is due to the unknown assertion, and points at the line. -/
def PointsAt (line : Nat) (error : SourceError) : Prop :=
  error.cause = .assertion "Assert".toList "bogus".toList .unknownFunction ∧
    error.location.map (·.line) = some (line : Int)

instance (line : Nat) (error : SourceError) : Decidable (PointsAt line error) :=
  inferInstanceAs (Decidable (_ ∧ _))

/-- The text of a test case up to the body of its test, on one line. -/
def openTest : Text :=
  "tests.a.add(\x7bname: 'b', test_x: function() \x7b\n".toList

/-- A call of an unknown assertion. -/
def unknownCall : Text :=
  "Y.Assert.bogus( 1 );".toList

/-- A test case with a test that calls an unknown assertion behind other code. -/
def callBehind (code : Text) : Text :=
  openTest ++ code ++ unknownCall ++ "\n\x7d\x7d);".toList

/-- A call on three lines that has an expectation on one. -/
def spreadCall : Text :=
  "Y.Assert.isTrue(\n\ta\n);\n".toList

/-- A wrapper on four lines around code on one. -/
def spreadWrapper : Text :=
  "try \x7b\n\tJsMockito.when();\n\x7d catch( e ) \x7b\n\x7d\n".toList

/-- A wrapper on several lines in front of an unknown assertion lowers the line that is reported. -/
theorem spreadWrapper_fault_line :
    Settings.ofValues PlainValue.coercions [] = .ok {} ∧ ∃ error, convert {} (callBehind spreadWrapper) = .error error ∧ PointsAt 3 error ∧
      ∃ found placed adapted front sites gap index, OuterContainer.read (callBehind spreadWrapper) = .ok found ∧
        placed ∈ found.tree.placed ∧ (placed.role = .helper ∨ placed.role = .test) ∧
        ({} : Settings).bodyStyle.RefusesAt placed.names placed.code.body "Assert".toList "bogus".toList
          .unknownFunction adapted front sites gap ∧
        placed.StandsOn ({} : Settings).bodyStyle (callBehind spreadWrapper) adapted front index ∧
        error.location.map (·.line) = some (placed.code.line + (written sites gap).count '\n') ∧
        (error.location.map (·.line) = some ((index : Int) + 1) ↔
          front.count '\n' = (written sites gap).count '\n') := by
  have valid : Settings.ofValues PlainValue.coercions [] = .ok {} := rfl
  have refused : (failure? (convert {} (callBehind spreadWrapper))).any (PointsAt 3) = true := by decide +kernel
  obtain ⟨error, failed, points⟩ := exists_eq_error_of_any refused
  have points := of_decide_eq_true points
  obtain ⟨found, placed, adapted, front, sites, gap, index, read, member, role, refusesAt, standsOn, line, exact, -⟩ :=
    assertion_fault_line valid failed points.1
  exact ⟨valid, error, failed, points, found, placed, adapted, front, sites, gap, index, read, member, role, refusesAt,
    standsOn, line, exact⟩

/-- Behind other code, the call stands as many lines below the test as the code has line feeds. -/
theorem callBehind_eq (code : Text) :
    ∃ front rest, callBehind code = front ++ unknownCall ++ rest ∧
      lineAt (callBehind code) front.length = code.count '\n' + 2 := by
  have opening : openTest.count '\n' = 1 := by decide
  refine ⟨openTest ++ code, "\n\x7d\x7d);".toList, rfl, ?_⟩
  rw [callBehind, List.append_assoc (openTest ++ code), lineAt, List.take_left, List.count_append, opening]
  omega

/-- Behind a call or a wrapper that takes up more lines than what takes its place, a call is reported on a line above
its own. -/
theorem callBehind_reported_early :
    (∃ error, convert {} (callBehind spreadCall) = .error error ∧ PointsAt 3 error) ∧
      (∃ front rest, callBehind spreadCall = front ++ unknownCall ++ rest ∧
        lineAt (callBehind spreadCall) front.length = 5) ∧
      (∃ error, convert {} (callBehind spreadWrapper) = .error error ∧ PointsAt 3 error) ∧
      ∃ front rest, callBehind spreadWrapper = front ++ unknownCall ++ rest ∧
        lineAt (callBehind spreadWrapper) front.length = 6 := by
  have early {code : Text} (refused : (failure? (convert {} (callBehind code))).any (PointsAt 3) = true) :
      ∃ error, convert {} (callBehind code) = .error error ∧ PointsAt 3 error := by
    obtain ⟨error, failed, points⟩ := exists_eq_error_of_any refused
    exact ⟨error, failed, of_decide_eq_true points⟩
  have callLines : spreadCall.count '\n' = 3 := by decide
  have wrapperLines : spreadWrapper.count '\n' = 4 := by decide
  have call := callBehind_eq spreadCall
  have wrapper := callBehind_eq spreadWrapper
  rw [callLines] at call
  rw [wrapperLines] at wrapper
  exact ⟨early (by decide +kernel), call, early (by decide +kernel), wrapper⟩

end JasmineConversion
