import JasmineConversion.Proofs.Suite.MemberReading

/-! # Which member is read

The alternatives for a member are tried one after the other, and the first one that finds something
decides. So a member is read exactly where it is written, and no other one that is looked for before
it is written there.
-/

namespace JasmineConversion

open Text Source Pattern

namespace SuiteReader

variable {α : Type} {source : Text} {cursor cursor' : Cursor}

/-! ## The first alternative that finds something -/

/-- A member that may be given once is taken if none was given before. -/
theorem once_eq_ok_iff {former : Option α} {what : Misplaced} {index : Nat}
    {value found : TestCase} :
    (if former.isSome = true then do
        (misplacedAt source what index : SuiteReader Unit)
        pure value
      else pure value : SuiteReader TestCase) cursor = .ok found cursor' ↔
      former = none ∧ value = found ∧ cursor = cursor' := by
  cases former <;> simp

/-- Hooks and directives are looked for in vain, and the cursor stays where it is. -/
structure PassesToTests (source : Text) (cursor : Cursor) : Prop where
  setUp : SuiteReader.setUp source cursor = .ok none cursor
  tearDown : SuiteReader.tearDown source cursor = .ok none cursor
  should : SuiteReader.should source cursor = .ok none cursor

/-- What the first alternative that finds a member finds, behind those that find nothing. -/
inductive Finds (source : Text) (cursor : Cursor) : Member → (cursor' : Cursor) → Prop
  | setUp {code : Code} {cursor' : Cursor}
      (ran : SuiteReader.setUp source cursor = .ok (some code) cursor') :
      Finds source cursor (.setUp code) cursor'
  | tearDown {code : Code} {cursor' : Cursor}
      (noSetUp : SuiteReader.setUp source cursor = .ok none cursor)
      (ran : SuiteReader.tearDown source cursor = .ok (some code) cursor') :
      Finds source cursor (.tearDown code) cursor'
  | should {directives : Should} {cursor' : Cursor}
      (noSetUp : SuiteReader.setUp source cursor = .ok none cursor)
      (noTearDown : SuiteReader.tearDown source cursor = .ok none cursor)
      (ran : SuiteReader.should source cursor = .ok (some directives) cursor') :
      Finds source cursor (.should directives) cursor'
  | test {found : Test} {cursor' : Cursor} (passes : PassesToTests source cursor)
      (ran : SuiteReader.test source cursor = .ok (some found) cursor') :
      Finds source cursor (.test found) cursor'
  | placeholder {cursor' : Cursor} (passes : PassesToTests source cursor)
      (noTest : SuiteReader.test source cursor = .ok none cursor)
      (ran : SuiteReader.placeholder source cursor = .ok true cursor') :
      Finds source cursor .placeholder cursor'
  | helper {found : Helper} {cursor' : Cursor} (passes : PassesToTests source cursor)
      (noTest : SuiteReader.test source cursor = .ok none cursor)
      (noPlaceholder : SuiteReader.placeholder source cursor = .ok false cursor)
      (ran : SuiteReader.helper source cursor = .ok (some found) cursor') :
      Finds source cursor (.helper found) cursor'

variable {testCase testCase' : TestCase} {found : Member}

/-- Whatever is read and added as a member is found by one of the alternatives. -/
theorem exists_finds_of_member (ran : member source testCase cursor = .ok testCase' cursor') :
    ∃ found, Finds source cursor found cursor' ∧ testCase.Admits found ∧
      testCase.add found = testCase' := by
  simp only [member, bind_eq_ok_iff, position_eq_ok_iff] at ran
  obtain ⟨_, _, ⟨rfl, rfl⟩, asSetUp, _, noSetUp, ran⟩ := ran
  cases asSetUp with
  | some code =>
    obtain ⟨once, rfl, rfl⟩ := once_eq_ok_iff.mp ran
    exact ⟨_, .setUp noSetUp, once, rfl⟩
  | none =>
  obtain ⟨_, -, -, rfl⟩ := hook_eq_none_iff.mp noSetUp
  simp only [bind_eq_ok_iff] at ran
  obtain ⟨asTearDown, _, noTearDown, ran⟩ := ran
  cases asTearDown with
  | some code =>
    obtain ⟨once, rfl, rfl⟩ := once_eq_ok_iff.mp ran
    exact ⟨_, .tearDown noSetUp noTearDown, once, rfl⟩
  | none =>
  obtain ⟨_, -, -, rfl⟩ := hook_eq_none_iff.mp noTearDown
  simp only [bind_eq_ok_iff] at ran
  obtain ⟨asShould, _, noShould, ran⟩ := ran
  cases asShould with
  | some directives =>
    obtain ⟨once, rfl, rfl⟩ := once_eq_ok_iff.mp ran
    exact ⟨_, .should noSetUp noTearDown noShould, once, rfl⟩
  | none =>
  obtain ⟨_, -, -, rfl⟩ := should_eq_none_iff.mp noShould
  -- From here on, the readers of hooks and of directives have found nothing.
  have passes : PassesToTests source cursor := ⟨noSetUp, noTearDown, noShould⟩
  simp only [bind_eq_ok_iff] at ran
  obtain ⟨asTest, _, noTest, ran⟩ := ran
  cases asTest with
  | some found =>
    obtain ⟨rfl, rfl⟩ := pure_eq_ok_iff.mp ran
    exact ⟨_, .test passes noTest, trivial, rfl⟩
  | none =>
  obtain ⟨_, -, -, -, rfl⟩ := test_eq_none_iff.mp noTest
  simp only [bind_eq_ok_iff] at ran
  obtain ⟨asPlaceholder, _, noPlaceholder, ran⟩ := ran
  cases asPlaceholder with
  | true =>
    obtain ⟨rfl, rfl⟩ := pure_eq_ok_iff.mp ran
    exact ⟨_, .placeholder passes noTest noPlaceholder, trivial, rfl⟩
  | false =>
  obtain ⟨_, -, -, rfl⟩ := placeholder_eq_false_iff.mp noPlaceholder
  simp only [bind_eq_ok_iff, Bool.false_eq_true, if_false] at ran
  obtain ⟨asHelper, _, isHelper, ran⟩ := ran
  cases asHelper with
  | some found =>
    obtain ⟨rfl, rfl⟩ := pure_eq_ok_iff.mp ran
    exact ⟨_, .helper passes noTest noPlaceholder isHelper, trivial, rfl⟩
  | none => simp at ran

/-- What an alternative finds is added, if there may be one more of its kind. -/
theorem Finds.member (finds : Finds source cursor found cursor') (admits : testCase.Admits found) :
    SuiteReader.member source testCase cursor = .ok (testCase.add found) cursor' := by
  have here : position cursor = .ok cursor.index cursor := rfl
  cases finds with
  | setUp ran =>
    simp only [SuiteReader.member, bind_apply_of_ok here, bind_apply_of_ok ran]
    exact once_eq_ok_iff.mpr ⟨admits, rfl, rfl⟩
  | tearDown noSetUp ran =>
    simp only [SuiteReader.member, bind_apply_of_ok here, bind_apply_of_ok noSetUp, bind_apply_of_ok ran]
    exact once_eq_ok_iff.mpr ⟨admits, rfl, rfl⟩
  | should noSetUp noTearDown ran =>
    simp only [SuiteReader.member, bind_apply_of_ok here, bind_apply_of_ok noSetUp, bind_apply_of_ok noTearDown,
      bind_apply_of_ok ran]
    exact once_eq_ok_iff.mpr ⟨admits, rfl, rfl⟩
  | test passes ran =>
    simp only [SuiteReader.member, bind_apply_of_ok here, bind_apply_of_ok passes.setUp,
      bind_apply_of_ok passes.tearDown, bind_apply_of_ok passes.should, bind_apply_of_ok ran]
    rfl
  | placeholder passes noTest ran =>
    simp only [SuiteReader.member, bind_apply_of_ok here, bind_apply_of_ok passes.setUp,
      bind_apply_of_ok passes.tearDown, bind_apply_of_ok passes.should, bind_apply_of_ok noTest,
      bind_apply_of_ok ran]
    rfl
  | helper passes noTest noPlaceholder ran =>
    simp only [SuiteReader.member, bind_apply_of_ok here, bind_apply_of_ok passes.setUp,
      bind_apply_of_ok passes.tearDown, bind_apply_of_ok passes.should, bind_apply_of_ok noTest,
      bind_apply_of_ok noPlaceholder, Bool.false_eq_true, if_false, bind_apply_of_ok ran]
    rfl

/-- A name is free where neither a hook nor a test is found under it. -/
theorem PassesToTests.freeName {start : Nat} {name key parameters head rest : Text}
    (passes : PassesToTests source cursor) (noTest : SuiteReader.test source cursor = .ok none cursor)
    (skipped : skip source cursor.index = .ok start) (isKey : Key name key)
    (function : FunctionHead parameters head) (blank : isBlankText parameters = true)
    (here : source.drop start = key ++ head ++ rest) (braced : Braced rest) : FreeName name := by
  have noHook : ∀ {hookName}, hook source hookName cursor = .ok none cursor → name ≠ hookName := by
    rintro hookName absent rfl
    obtain ⟨_, skipped', noHook, -⟩ := hook_eq_none_iff.mp absent
    obtain rfl := Except.ok.inj (skipped.symm.trans skipped')
    rw [hook?_eq_some_iff.mpr ⟨_, _, _, isKey, function, blank, here, braced⟩] at noHook
    cases noHook
  refine ⟨noHook passes.setUp, noHook passes.tearDown, fun test isMark => ?_⟩
  obtain ⟨_, skipped', unmarked, -⟩ := test_eq_none_iff.mp noTest
  obtain rfl := Except.ok.inj (skipped.symm.trans skipped')
  rw [test?_eq_some_iff.mpr ⟨_, _, _, _, isMark, isKey, function, blank, here, braced⟩] at unmarked
  cases unmarked

/-- What an alternative finds is written as a member, and is not written as one that is looked for before
it. -/
theorem Finds.exists_memberText (finds : Finds source cursor found cursor') :
    ∃ start text, skip source cursor.index = .ok start ∧ Spans source start text cursor'.index ∧
      MemberText .accepted (lineAt source start) text found ∧ cursor.log = cursor'.log := by
  cases finds with
  | setUp ran =>
    obtain ⟨start, key, parameters, function, skipped, isKey, blank, spans, isFunction, sameLog⟩ :=
      hook_eq_some_iff.mp ran
    exact ⟨start, _, skipped, spans, .setUp isKey blank isFunction, sameLog⟩
  | tearDown noSetUp ran =>
    obtain ⟨start, key, parameters, function, skipped, isKey, blank, spans, isFunction, sameLog⟩ :=
      hook_eq_some_iff.mp ran
    exact ⟨start, _, skipped, spans, .tearDown isKey blank isFunction, sameLog⟩
  | should noSetUp noTearDown ran => exact should_eq_some_iff.mp ran
  | test passes ran => exact test_eq_some_iff.mp ran
  | placeholder passes noTest ran => exact placeholder_eq_true_iff.mp ran
  | @helper found _ passes noTest noPlaceholder ran =>
    obtain ⟨name, parameters, code⟩ := found
    obtain ⟨start, key, function, skipped, identifier, isKey, spans, isFunction, sameLog⟩ :=
      helper_eq_some_iff.mp ran
    refine ⟨start, _, skipped, spans, .helper identifier (fun blank => ?_) isKey isFunction, sameLog⟩
    obtain ⟨head, rest, function, here, braced, -⟩ :=
      (function_iff cursor).mpr ⟨_, spans, isFunction, sameLog⟩
    exact passes.freeName noTest skipped isKey function blank here braced

variable {start : Nat} {hookName name parameters body : Text}

/-- Where no method has the name of a hook, or it has parameters, the hook is looked for in vain. -/
theorem hook_eq_none (skipped : skip source cursor.index = .ok start) (identifier : Identifier hookName)
    (other : ∀ parameters body, helper? (source.drop start) = some (hookName, parameters, body) →
      isBlankText parameters = false) : hook source hookName cursor = .ok none cursor :=
  hook_eq_none_iff.mpr ⟨start, skipped, hook?_eq_none_of_helper? identifier other, rfl⟩

/-- A function under another name, or with parameters, is no hook. -/
theorem hook_eq_none_of_helper? (skipped : skip source cursor.index = .ok start)
    (identifier : Identifier hookName)
    (named : helper? (source.drop start) = some (name, parameters, body))
    (other : isBlankText parameters = true → name ≠ hookName) :
    hook source hookName cursor = .ok none cursor := by
  refine hook_eq_none skipped identifier fun parameters' body' same => ?_
  rw [named, Option.some.injEq, Prod.mk.injEq, Prod.mk.injEq] at same
  obtain ⟨rfl, rfl, rfl⟩ := same
  exact Bool.eq_false_iff.mpr fun blank => other blank rfl

theorem identifier_setUp : Identifier "setUp".toList :=
  ⟨by decide, by decide⟩

theorem identifier_tearDown : Identifier "tearDown".toList :=
  ⟨by decide, by decide⟩

/-- Where a name is quoted, there is neither a hook nor directives. -/
theorem passesToTests_of_isQuote (skipped : skip source cursor.index = .ok start)
    (quoted : (source.drop start).head?.any Mode.isQuote = true) : PassesToTests source cursor := by
  have unnamed := helper?_eq_none_of_isQuote quoted
  exact ⟨hook_eq_none skipped identifier_setUp (by simp [unnamed]),
    hook_eq_none skipped identifier_tearDown (by simp [unnamed]),
    should_eq_none_iff.mpr ⟨start, skipped, should?_eq_none_of_isQuote quoted, rfl⟩⟩

/-- Where a method has another name than a hook, or parameters, there is neither a hook nor directives. -/
theorem passesToTests_of_helper? (skipped : skip source cursor.index = .ok start)
    (named : helper? (source.drop start) = some (name, parameters, body))
    (other : isBlankText parameters = true → name ≠ "setUp".toList ∧ name ≠ "tearDown".toList) :
    PassesToTests source cursor :=
  ⟨hook_eq_none_of_helper? skipped identifier_setUp named fun blank => (other blank).1,
    hook_eq_none_of_helper? skipped identifier_tearDown named fun blank => (other blank).2,
    should_eq_none_iff.mpr ⟨start, skipped, should?_eq_none_of_helper? named, rfl⟩⟩

/-- A member that is written is found, since all that is looked for before it is not. -/
theorem finds_of_memberText {text : Text}
    (skipped : skip source cursor.index = .ok start) (spans : Spans source start text cursor'.index)
    (written : MemberText .accepted (lineAt source start) text found)
    (sameLog : cursor.log = cursor'.log) : Finds source cursor found cursor' := by
  cases written with
  | setUp isKey blank isFunction =>
    exact .setUp (hook_eq_some_iff.mpr
      ⟨start, _, _, _, skipped, isKey, blank, spans, isFunction, sameLog⟩)
  | tearDown isKey blank isFunction =>
    obtain ⟨head, rest, function, here, braced, -⟩ :=
      (function_iff cursor).mpr ⟨_, spans, isFunction, sameLog⟩
    have named := helper?_eq_some_iff.mpr ⟨_, _, identifier_tearDown, isKey, function, here, braced⟩
    exact .tearDown (hook_eq_none_of_helper? skipped identifier_setUp named fun _ => by decide)
      (hook_eq_some_iff.mpr ⟨start, _, _, _, skipped, isKey, blank, spans, isFunction, sameLog⟩)
  | should isKey denotes =>
    have unnamed : helper? (source.drop start) = none := by
      apply helper?_eq_none_of_should?
      rw [should?_eq_some_iff.mpr ⟨_, isKey, by rw [spans.here]; simp; rfl, _, rfl⟩]
      rfl
    exact .should (hook_eq_none skipped identifier_setUp (by simp [unnamed]))
      (hook_eq_none skipped identifier_tearDown (by simp [unnamed]))
      (should_eq_some_iff.mpr ⟨start, _, skipped, spans, .should isKey denotes, sameLog⟩)
  | test isMark isKey blank isFunction =>
    obtain ⟨head, rest, function, here, braced, -⟩ :=
      (function_iff cursor).mpr ⟨_, spans, isFunction, sameLog⟩
    have named := helper?_eq_some_iff.mpr ⟨_, _, isMark.identifier, isKey, function, here, braced⟩
    exact .test (passesToTests_of_helper? skipped named fun _ => by cases isMark <;> simp)
      (test_eq_some_iff.mpr ⟨start, _, skipped, spans, .test isMark isKey blank isFunction, sameLog⟩)
  | quotedTest isQuote content nonempty isKey blank isFunction =>
    have quoted : (source.drop start).head?.any Mode.isQuote = true := by
      obtain ⟨tail, rfl, -, -⟩ := isKey.split
      simp [spans.here, isQuote]
    exact .test (passesToTests_of_isQuote skipped quoted) (test_eq_some_iff.mpr
      ⟨start, _, skipped, spans, .quotedTest isQuote content nonempty isKey blank isFunction, sameLog⟩)
  | placeholder isQuote isKey isFunction =>
    obtain ⟨head, rest, function, here, braced, -⟩ :=
      (function_iff cursor).mpr ⟨_, spans, isFunction, sameLog⟩
    have empty := placeholder?_eq_some_iff.mpr ⟨_, _, _, _, isQuote, isKey, function, here, braced⟩
    have quoted := placeholder?_isQuote empty
    exact .placeholder (passesToTests_of_isQuote skipped quoted)
      (test_eq_none_iff.mpr ⟨start, skipped, test?_eq_none_of_isQuote quoted,
        quotedTest_eq_none (.inr (by simp [empty])), rfl⟩)
      (placeholder_eq_true_iff.mpr
        ⟨start, _, skipped, spans, .placeholder isQuote isKey isFunction, sameLog⟩)
  | helper identifier free isKey isFunction =>
    obtain ⟨head, rest, function, here, braced, -⟩ :=
      (function_iff cursor).mpr ⟨_, spans, isFunction, sameLog⟩
    have named := helper?_eq_some_iff.mpr ⟨_, _, identifier, isKey, function, here, braced⟩
    -- A free name passes every reader that is asked before the one for helpers.
    have noMark : test? (source.drop start) = none := by
      refine test?_eq_none_of_helper? fun test mark parameters' body' isMark same => ?_
      rw [named, Option.some.injEq, Prod.mk.injEq, Prod.mk.injEq] at same
      obtain ⟨rfl, rfl, rfl⟩ := same
      exact Bool.eq_false_iff.mpr fun blank => (free blank).test test isMark
    have unquoted : (source.drop start).head?.any Mode.isQuote = false :=
      Bool.eq_false_iff.mpr fun quoted => by simp [helper?_eq_none_of_isQuote quoted] at named
    have noPlaceholder : placeholder? (source.drop start) = none :=
      Option.eq_none_iff_forall_ne_some.mpr fun body empty =>
        Bool.noConfusion (unquoted.symm.trans (placeholder?_isQuote empty))
    exact .helper
      (passesToTests_of_helper? skipped named fun blank => ⟨(free blank).setUp, (free blank).tearDown⟩)
      (test_eq_none_iff.mpr ⟨start, skipped, noMark, quotedTest_eq_none (.inl unquoted), rfl⟩)
      (placeholder_eq_false_iff.mpr ⟨start, skipped, noPlaceholder, rfl⟩)
      (helper_eq_some_iff.mpr ⟨start, _, _, skipped, identifier, isKey, spans, isFunction, sameLog⟩)

/-- Whatever is read as a member is written as one, and is not written as one of the members that
are tried before it. -/
theorem exists_memberText_of_member (ran : member source testCase cursor = .ok testCase' cursor') :
    ∃ start text found, skip source cursor.index = .ok start ∧
      Spans source start text cursor'.index ∧
      MemberText .accepted (lineAt source start) text found ∧ testCase.Admits found ∧
      testCase.add found = testCase' ∧ cursor.log = cursor'.log := by
  obtain ⟨found, finds, admits, added⟩ := exists_finds_of_member ran
  obtain ⟨start, text, skipped, spans, written, sameLog⟩ := finds.exists_memberText
  exact ⟨start, text, found, skipped, spans, written, admits, added, sameLog⟩

/-- A member that is written is read, since all that is tried before finds nothing. -/
theorem member_of_memberText {text : Text} (skipped : skip source cursor.index = .ok start)
    (spans : Spans source start text cursor'.index)
    (written : MemberText .accepted (lineAt source start) text found)
    (admits : testCase.Admits found) (sameLog : cursor.log = cursor'.log) :
    member source testCase cursor = .ok (testCase.add found) cursor' :=
  (finds_of_memberText skipped spans written sameLog).member admits

end SuiteReader

end JasmineConversion
