import JasmineConversion.Proofs.Outcome
import JasmineConversion.Suite.Adaptation

/-! # What adapting keeps

An adaptation that does not fail has adapted every body of a test case, and has left everything else
as it was: the names, the order of the tests and of the helper methods, and the directives.
-/

namespace JasmineConversion

open Text

/-- The body of a test or a helper method once it is adapted. -/
def BodyStyle.adaptedBody (style : BodyStyle) (names : List Text) (body : Text) : Text :=
  match (style.testBody names body).2 with
  | .ok raw => dedent raw
  | .error _ => body

/-- A body of code once it is adapted. -/
def BodyStyle.adaptedCode (style : BodyStyle) (names : List Text) (code : Code) : Code :=
  ⟨style.adaptedBody names code.body, code.line⟩

/-- A test case that is adapted to another one. -/
structure TestCase.Adapts (style : BodyStyle) (names : List Text) (before after : TestCase) : Prop where
  name : after.name = before.name
  should : after.should = before.should
  helpers : after.helpers =
    before.helpers.map fun found => { found with code := style.adaptedCode names found.code }
  tests : after.tests =
    before.tests.map fun found => { found with code := style.adaptedCode names found.code }
  succeeds : ∀ found ∈ before.tests, ∃ raw, (style.testBody names found.code.body).2 = .ok raw

namespace Adapting

/-- What adapting a body does to the body and to the trail. -/
theorem code_apply (adapt : Text → List LogRecord × Except SourceError Text) (found : Code)
    (trail : Trail) :
    code adapt found trail =
      if trail.failure.isSome then (found, trail)
      else match (adapt found.body).2 with
        | .ok body => (found.setBody body, { trail with log := trail.log ++ (adapt found.body).1 })
        | .error error => (found, ⟨trail.log ++ (adapt found.body).1,
            some (error.relocate (found.line - 1))⟩) := by
  unfold code
  simp only [bind, StateT.bind, get, getThe, MonadStateOf.get, StateT.get, pure]
  by_cases failed : trail.failure.isSome = true
  · simp only [failed, if_true]
    rfl
  · simp only [failed, Bool.false_eq_true, if_false]
    cases (adapt found.body).2 <;> rfl

/-- Something is noted unless the adaptation has failed. -/
theorem note_apply (message : String) (trail : Trail) :
    note message trail = ((), if trail.failure.isSome then trail
      else { trail with log := trail.log ++ [⟨.adapting, .debug, message⟩] }) :=
  rfl

/-- An adaptation has not failed. -/
def Unfailed (trail : Trail) : Prop :=
  trail.failure = none

/-- Adapting a body delivers what its text is adapted to. -/
theorem code_delivers (adapt : Text → List LogRecord × Except SourceError Text) (found : Code) :
    Delivers Unfailed (code adapt found) fun result =>
      ∃ raw, (adapt found.body).2 = .ok raw ∧ result = found.setBody raw := by
  intro trail ended
  rw [code_apply] at ended ⊢
  by_cases failed : trail.failure.isSome = true
  · rw [if_pos failed] at ended
    rw [ended] at failed
    cases failed
  · rw [if_neg failed] at ended ⊢
    cases outcome : (adapt found.body).2 with
    | error error => simp [outcome, Unfailed] at ended
    | ok raw => exact ⟨by simpa [Unfailed] using failed, raw, rfl, rfl⟩

/-- Noting something delivers nothing. -/
theorem note_delivers (message : String) : Delivers Unfailed (note message) fun _ => True := by
  intro trail ended
  rw [note_apply] at ended
  split at ended
  · exact ⟨ended, trivial⟩
  · next unfailed => exact ⟨by simpa [Unfailed] using unfailed, trivial⟩

/-- Adapting a hook delivers some hook. -/
theorem hook_delivers (adapt : Text → Except SourceError Text) (found : Option Code) :
    Delivers Unfailed (hook adapt found) fun _ => True := by
  cases found with
  | none => exact .pure trivial
  | some found => exact (code_delivers _ found).map fun _ _ => trivial

/-- Looking at the own hooks of a test case delivers some. -/
theorem ownHooks_delivers (found : TestCase) : Delivers Unfailed (ownHooks found) fun _ => True := by
  unfold ownHooks
  cases found.constructorName with
  | none => exact .pure trivial
  | some name =>
    refine (hook_delivers _ found.setUp).bind fun _ => ?_
    exact (hook_delivers _ found.tearDown).bind fun _ => .pure fun _ _ => trivial

/-- Adapting the body of a test delivers the adapted body. -/
theorem bodyCode_delivers (style : BodyStyle) (names : List Text) (found : Code) :
    Delivers Unfailed (code (style.testBody names) found) fun result =>
      result = style.adaptedCode names found ∧ ∃ raw, (style.testBody names found.body).2 = .ok raw := by
  intro trail ended
  obtain ⟨began, raw, ran, same⟩ := code_delivers _ found trail ended
  refine ⟨began, ?_, raw, ran⟩
  rw [same]
  simp only [BodyStyle.adaptedCode, BodyStyle.adaptedBody, ran]
  rfl

/-- Adapting a helper method delivers it with its adapted body. -/
theorem helper_delivers (style : BodyStyle) (names : List Text) (found : Helper) :
    Delivers Unfailed (helper style names found) fun result =>
      result = { found with code := style.adaptedCode names found.code } ∧ True := by
  refine (bodyCode_delivers style names found.code).bind fun adapted => .pure ?_
  rintro ⟨rfl, -⟩
  exact ⟨rfl, trivial⟩

/-- Adapting a test delivers it with its adapted body. -/
theorem test_delivers (style : BodyStyle) (names : List Text) (found : Test) :
    Delivers Unfailed (test style names found) fun result =>
      result = { found with code := style.adaptedCode names found.code } ∧
        ∃ raw, (style.testBody names found.code.body).2 = .ok raw := by
  refine (bodyCode_delivers style names found.code).bind fun adapted => .pure ?_
  rintro ⟨rfl, ran⟩
  exact ⟨rfl, ran⟩

/-- Adapting a test case delivers one that it is adapted to. -/
theorem testCase_delivers (style : BodyStyle) (found : TestCase) :
    Delivers Unfailed (testCase style found) (found.Adapts style (found.helpers.map (·.name))) := by
  unfold testCase
  refine (note_delivers _).bind fun _ => ?_
  refine (ownHooks_delivers found).bind fun own => ?_
  refine (hook_delivers _ own.1).bind fun _ => (hook_delivers _ own.2).bind fun _ => ?_
  refine (Delivers.mapM (helper_delivers style _) found.helpers).bind fun helpers => ?_
  refine (Delivers.mapM (test_delivers style _) found.tests).bind fun tests => .pure ?_
  rintro ⟨rfl, ran⟩ ⟨rfl, -⟩ - - - -
  exact ⟨rfl, rfl, rfl, rfl, ran⟩

/-- The tree of a test case is adapted to a test case. -/
theorem testCase_adapts {style : BodyStyle} {found : TestCase}
    (unfailed : ((Container.testCase found).adapt style).2.failure = none) :
    ∃ after, ((Container.testCase found).adapt style).1 = .testCase after ∧
      found.Adapts style (found.helpers.map (·.name)) after :=
  ⟨_, rfl, (testCase_delivers style found {} unfailed).2⟩

end Adapting

end JasmineConversion
