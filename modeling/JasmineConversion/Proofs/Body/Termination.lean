import JasmineConversion.Proofs.Body.Wrappers

/-! # Loops that rewrite code in place

Assertion calls are replaced and wrappers are removed by loops in which each iteration changes the code and the index
to go on from. An expectation may be longer than the call that it replaces, and behind a removed wrapper a loop goes on
inside the code that took its place, or past the end of all code. What brings the loops to their end is the code ahead:
every iteration that goes on leaves less of it.
-/

namespace JasmineConversion

open Text Source

/-- How many characters of code lie ahead from an index on. None do once the index is past the end. -/
def Text.ahead (code : Text) (index : Nat) : Nat :=
  (code.drop index).length

/-- A loop that rewrites code in place. An iteration reads code from an index on. It ends the loop, fails, or goes on
with a state, which tells the code from then on and where the next iteration resumes. -/
structure RewritingLoop where
  State : Type
  iterate : (code : Text) → (index : Nat) → Except SourceError (Option State)
  code : State → Text
  resume : State → Nat

namespace RewritingLoop

/-- A run of a loop over code from an index on to its outcome, with the number of its iterations that go on. Nothing
bounds this number. -/
inductive Run (loop : RewritingLoop) : (count : Nat) → (code : Text) → (index : Nat) →
    (outcome : Except SourceError Text) → Prop
  | returns {code : Text} {index : Nat} (stops : loop.iterate code index = .ok none) :
      Run loop 0 code index (.ok code)
  | raises {code : Text} {index : Nat} {error : SourceError} (fails : loop.iterate code index = .error error) :
      Run loop 0 code index (.error error)
  | goesOn {count : Nat} {code : Text} {index : Nat} {next : loop.State} {outcome : Except SourceError Text}
      (ran : loop.iterate code index = .ok (some next))
      (further : Run loop count (loop.code next) (loop.resume next) outcome) :
      Run loop (count + 1) code index outcome

/-- Every iteration that goes on leaves less of the code ahead. -/
def Advances (loop : RewritingLoop) : Prop :=
  ∀ code index next, loop.iterate code index = .ok (some next) →
    ahead (loop.code next) (loop.resume next) < ahead code index

/-- A loop advances, so that it comes to an end from every index of every code within as many iterations as there are
characters ahead. A rewriting gives what the loop comes to from the start of code. -/
structure Terminates (loop : RewritingLoop) (rewrite : Text → Except SourceError Text) : Prop where
  advances : loop.Advances
  ends : ∀ code index, ∃ count outcome, count ≤ ahead code index ∧ loop.Run count code index outcome
  gives : ∀ count code outcome, loop.Run count code 0 outcome → rewrite code = outcome

/-- An iteration of a loop, and what is given from where it goes on. -/
def unroll (loop : RewritingLoop) (goOn : Text → Nat → Except SourceError Text) (code : Text) (index : Nat) :
    Except SourceError Text :=
  match loop.iterate code index with
  | .error error => .error error
  | .ok none => .ok code
  | .ok (some next) => goOn (loop.code next) (loop.resume next)

variable {loop : RewritingLoop} {count index : Nat} {code : Text} {outcome : Except SourceError Text}
  {runFrom : Nat → Text → Nat → Except SourceError Text}

/-- A run takes no more steps than there are characters ahead. -/
theorem Run.count_le (run : loop.Run count code index outcome) (advances : loop.Advances) :
    count ≤ ahead code index := by
  induction run with
  | returns stops => exact Nat.zero_le _
  | raises fails => exact Nat.zero_le _
  | goesOn ran further ih => exact Nat.succ_le_of_lt (Nat.lt_of_le_of_lt ih (advances _ _ _ ran))

/-- The induction is on the code ahead. The index alone has no bound, because the code may grow. -/
theorem Advances.exists_run (advances : loop.Advances) (code : Text) (index : Nat) :
    ∃ count outcome, loop.Run count code index outcome := by
  induction left : ahead code index using Nat.strongRecOn generalizing code index with
  | _ _ ih =>
    subst left
    cases ran : loop.iterate code index with
    | error error => exact ⟨0, .error error, .raises ran⟩
    | ok state =>
      cases state with
      | none => exact ⟨0, .ok code, .returns ran⟩
      | some next =>
        obtain ⟨count, outcome, further⟩ := ih _ (advances _ _ _ ran) _ _ rfl
        exact ⟨count + 1, outcome, .goesOn ran further⟩

/-- A bound on the iterations that is larger than their number cuts no run short. -/
theorem Run.eq_of_unroll (unrolls : ∀ bound code index, runFrom (bound + 1) code index =
    loop.unroll (runFrom bound) code index) (run : loop.Run count code index outcome) (extra : Nat) :
    runFrom (count + extra + 1) code index = outcome := by
  induction run with
  | returns stops => rw [unrolls, unroll, stops]
  | raises fails => rw [unrolls, unroll, fails]
  | goesOn ran further ih =>
    rw [unrolls, unroll, ran, Nat.add_right_comm]
    exact ih

/-- A loop whose steps lower what is ahead terminates, with the result of the function that takes as
many steps. -/
theorem Advances.terminates (advances : loop.Advances) (runFrom : Nat → Text → Nat → Except SourceError Text)
    (unrolls : ∀ bound code index, runFrom (bound + 1) code index = loop.unroll (runFrom bound) code index) :
    loop.Terminates fun code => runFrom (code.length + 1) code 0 where
  advances := advances
  ends code index := by
    obtain ⟨count, outcome, run⟩ := advances.exists_run code index
    exact ⟨count, outcome, run.count_le advances, run⟩
  gives count code outcome run := by
    obtain ⟨extra, length⟩ := Nat.exists_eq_add_of_le (run.count_le advances)
    have length : code.length = count + extra := length
    rw [length]
    exact run.eq_of_unroll unrolls extra

end RewritingLoop

/-! ## Assertion calls -/

namespace AssertionCall

/-- The loop that replaces assertion calls. -/
def replacing : RewritingLoop where
  State := Step
  iterate := step
  code := Step.code
  resume := Step.resume

theorem replacing_advances : replacing.Advances := by
  intro code index next ran
  have less := lt_of_step ran
  rwa [← List.length_drop, ← List.length_drop] at less

/-- Rewriting with one step more takes a step of the loop first. -/
theorem replaceFrom_succ (bound : Nat) (code : Text) (index : Nat) :
    replaceFrom (bound + 1) code index = replacing.unroll (replaceFrom bound) code index := by
  rw [replaceFrom, RewritingLoop.unroll]
  simp only [replacing]
  rcases step code index with error | _ | next <;> rfl

theorem replacing_terminates : replacing.Terminates replaceAll :=
  replacing_advances.terminates replaceFrom replaceFrom_succ

end AssertionCall

/-! ## Wrappers -/

namespace Body

/-- The loop that removes wrappers. -/
def unwrapping (marker : Content) : RewritingLoop where
  State := UnwrapStep
  iterate := unwrapStep marker
  code := UnwrapStep.code
  resume := UnwrapStep.resume

theorem unwrapping_advances (marker : Content) : (unwrapping marker).Advances := by
  intro code index next ran
  have less := lt_of_unwrapStep ran
  rwa [← List.length_drop, ← List.length_drop] at less

/-- Unwrapping with one step more takes a step of the loop first. -/
theorem unwrapFrom_succ (marker : Content) (bound : Nat) (code : Text) (index : Nat) :
    (unwrapFrom marker (bound + 1) code index).2 =
      (unwrapping marker).unroll (fun code index => (unwrapFrom marker bound code index).2) code index := by
  rw [unwrapFrom, RewritingLoop.unroll]
  simp only [unwrapping]
  rcases unwrapStep marker code index with error | _ | next <;> rfl

theorem unwrapping_terminates (marker : Content) : (unwrapping marker).Terminates (unwrapMocks marker) :=
  (unwrapping_advances marker).terminates (fun bound code index => (unwrapFrom marker bound code index).2)
    (unwrapFrom_succ marker)

/-- An iteration puts the code of a wrapper in its place. The loop resumes in what is inserted, behind as many
characters as the indent and the keyword of the wrapper took up. -/
structure Inserts (marker : Content) (code : Text) (next : UnwrapStep) (before indent inserted : Text) : Prop where
  wrapper : ∃ head raw clause, WrapperIn marker code before indent head raw clause ∧ inserted = unwrapped raw
  here : before ++ inserted <+: next.code
  removed : next.removed = some before.length
  resume : next.resume = before.length + indent.length + 3

/-- A step that removes a wrapper puts its body in its place. -/
theorem exists_inserts_of_unwrapStep {marker : Content} {code : Text} {index : Nat} {next : UnwrapStep}
    (ran : unwrapStep marker code index = .ok (some next)) (removes : next.removed ≠ none) :
    ∃ before indent inserted, Inserts marker code next before indent inserted := by
  cases unwrapStep_eq_some_iff.mp ran with
  | kept first kept => exact absurd rfl removes
  | removed first wrapper handles whole =>
    exact ⟨_, _, _, ⟨_, _, _, wrapper, rfl⟩, List.prefix_append _ _, rfl, rfl⟩

/-- A mock verification and an assertion in a wrapper. -/
def wrappedFailure : Text :=
  "try \x7b\n\tJsMockito.verify();\n\tAssert.fail();\n\x7d catch( e ) \x7b\x7d".toList

/-- The code of the wrapper. -/
def bareFailure : Text :=
  "JsMockito.verify();\nAssert.fail();".toList

/-- The code with the expectation, which is longer than the assertion. -/
def statedFailure : Text :=
  "JsMockito.verify();\nexpect( true ).toBe( false );".toList

theorem unwrapStep_wrappedFailure :
    unwrapStep (.text "JsMockito".toList) wrappedFailure 0 = .ok (some ⟨bareFailure, 3, some 0⟩) :=
  rfl

/-- This step puts the failure in the place of its wrapper. -/
theorem inserts_wrappedFailure :
    Inserts (.text "JsMockito".toList) wrappedFailure ⟨bareFailure, 3, some 0⟩ [] [] bareFailure where
  wrapper := ⟨"try ".toList, "\n\tJsMockito.verify();\n\tAssert.fail();\n".toList, " catch( e ) ".toList,
    { here := by decide +kernel
      starts := by simp [StartsLine]
      isHead := @TryHead.intro [] [' '] (by simp) (by decide)
      encloses := by decide +kernel
      mentions := by decide +kernel
      caught := @CatchHead.intro [' '] [] " e ".toList [' '] (by decide) (by decide) (by decide) (by decide) },
    rfl⟩
  here := List.prefix_rfl
  removed := rfl
  resume := rfl

theorem step_bareFailure : AssertionCall.step bareFailure 0 = .ok (some ⟨statedFailure, 49⟩) :=
  rfl

/-- A wrapper without code. -/
def emptyWrapper : Text :=
  "try \x7b\x7d catch( e ) \x7b\x7d".toList

/-- The text without characters occurs in every body. No code is left for the loop to resume in. -/
theorem unwrapStep_emptyWrapper : unwrapStep (.text []) emptyWrapper 0 = .ok (some ⟨[], 3, some 0⟩) :=
  rfl

end Body

/-! ## Termination -/

open Body

/-- The loops that rewrite code in place terminate on every code, with every marker. Each iteration that goes on leaves
less of the code ahead, although replacing a call may make the code longer, and although the loop over wrappers resumes
in the code that it has put in the place of one, which may lie past the end where that code is short. -/
theorem rewriting_terminates :
    AssertionCall.replacing.Terminates AssertionCall.replaceAll ∧
    (∀ marker, (unwrapping marker).Terminates (unwrapMocks marker)) ∧
    (∃ code index next, AssertionCall.step code index = .ok (some next) ∧ code.length < next.code.length) ∧
    (∀ marker code index next, unwrapStep marker code index = .ok (some next) → next.removed ≠ none →
      ∃ before indent inserted, Inserts marker code next before indent inserted) ∧
    (∃ marker code index next before indent inserted, unwrapStep marker code index = .ok (some next) ∧
      Inserts marker code next before indent inserted ∧ next.resume < (before ++ inserted).length) ∧
    ∃ code index next, unwrapStep (.text []) code index = .ok (some next) ∧ next.code.length < next.resume := by
  refine ⟨AssertionCall.replacing_terminates, unwrapping_terminates, ?lengthens, ?inserts, ?inside, ?beyond⟩
  case lengthens => exact ⟨_, _, _, step_bareFailure, by decide⟩
  case inserts => exact fun marker code index next => exists_inserts_of_unwrapStep
  case inside => exact ⟨_, _, _, _, _, _, _, unwrapStep_wrappedFailure, inserts_wrappedFailure, by decide⟩
  case beyond => exact ⟨_, _, _, unwrapStep_emptyWrapper, by decide⟩

/-- Both loops go over the assertion in a wrapper in one iteration each. -/
theorem rewriting_terminates_on_wrappedFailure :
    (unwrapStep (.text "JsMockito".toList) wrappedFailure 0 = .ok (some ⟨bareFailure, 3, some 0⟩) ∧
      ahead bareFailure 3 < ahead wrappedFailure 0 ∧
      unwrapMocks (.text "JsMockito".toList) wrappedFailure = .ok bareFailure ∧
      ∃ before indent inserted, Inserts (.text "JsMockito".toList) wrappedFailure ⟨bareFailure, 3, some 0⟩
        before indent inserted) ∧
    AssertionCall.step bareFailure 0 = .ok (some ⟨statedFailure, 49⟩) ∧
      ahead statedFailure 49 < ahead bareFailure 0 ∧ AssertionCall.replaceAll bareFailure = .ok statedFailure := by
  obtain ⟨replaces, unwraps, -, inserts, -⟩ := rewriting_terminates
  have removal := unwraps (.text "JsMockito".toList)
  exact ⟨⟨unwrapStep_wrappedFailure, removal.advances _ _ ⟨bareFailure, 3, some 0⟩ unwrapStep_wrappedFailure,
      removal.gives 1 _ _ (.goesOn unwrapStep_wrappedFailure (.returns rfl)),
      inserts _ _ _ _ unwrapStep_wrappedFailure (by simp)⟩,
    step_bareFailure, replaces.advances _ _ ⟨statedFailure, 49⟩ step_bareFailure,
    replaces.gives 1 _ _ (.goesOn step_bareFailure (.returns rfl))⟩

end JasmineConversion
