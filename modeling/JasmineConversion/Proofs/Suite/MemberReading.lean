import JasmineConversion.Proofs.Outcome
import JasmineConversion.Proofs.Suite.Cursor
import JasmineConversion.Proofs.Suite.Grammar
import JasmineConversion.Proofs.Text.Position

/-! # Reading the members of a test case

The dialect that is read has brackets that enclose what they hold, and directives that the literal
between their braces denotes. Each member that is written in it is found by the one alternative
that it belongs to: the alternatives tell the members apart by the name in front of the colon.
-/

namespace JasmineConversion

open Text Source Pattern SuiteReader

/-- The dialect that is read: every bracket is closed by its partner. -/
def Dialect.accepted : Dialect where
  body := Bracket.brace.Encloses
  parameters _ := True
  directives raw directives := Bracket.brace.Encloses raw ∧
    ∃ literal, Literal.read ('{' :: raw ++ ['}']) = .ok literal ∧
      SuiteReader.directives {} (entriesOf literal) = .ok directives
  container := Bracket.brace.Encloses
  list := Bracket.square.Encloses

namespace TestCase

/-- A test case with one more member. -/
def add (testCase : TestCase) : Member → TestCase
  | .setUp code => { testCase with setUp := some code }
  | .tearDown code => { testCase with tearDown := some code }
  | .should directives => { testCase with should := some directives }
  | .test test => { testCase with tests := testCase.tests ++ [test] }
  | .placeholder => testCase
  | .helper helper => { testCase with helpers := testCase.helpers ++ [helper] }

/-- A test case has no member yet that it may have only once. -/
def Admits (testCase : TestCase) : Member → Prop
  | .setUp _ => testCase.setUp = none
  | .tearDown _ => testCase.tearDown = none
  | .should _ => testCase.should = none
  | _ => True

end TestCase

namespace SuiteReader

variable {source : Text} {cursor cursor' : Cursor}

/-! ## Functions -/

/-- A brace matches where it encloses a text. -/
theorem matchBracket_brace_iff {index close : Nat} (braced : Braced (source.drop index)) :
    matchBracket source index = .ok close ↔
      ∃ raw, Spans source index ('{' :: raw ++ ['}']) (close + 1) ∧ Bracket.brace.Encloses raw := by
  obtain ⟨rest, here⟩ := braced
  exact matchBracket_eq_ok_iff (show _ = some Bracket.brace.opener by rw [here]; rfl)

/-- The line of a body is that of its first character which is not blank. -/
theorem bodyLine_eq {raw : Text} {start stop : Nat} (spans : Spans source start raw stop) :
    lineAt source (start + (raw.length - (trimStart raw).length)) =
      bodyLine (lineAt source start) raw := by
  have blank : raw.takeWhile isBlank ++ trimStart raw = raw := List.takeWhile_append_dropWhile
  have lead : raw.length - (trimStart raw).length = (raw.takeWhile isBlank).length := by
    have lengths := congrArg List.length blank
    rw [List.length_append] at lengths
    omega
  rw [← blank] at spans
  rw [lead, spans.split.1.lineAt_eq, bodyLine]

/-- A body is read exactly where braces enclose one. -/
theorem body_eq_ok_iff {opened : Nat} {code : Code} (braced : Braced (source.drop opened)) :
    body source opened cursor = .ok code cursor' ↔
      ∃ raw, Spans source opened ('{' :: raw ++ ['}']) cursor'.index ∧ Bracket.brace.Encloses raw ∧
        .ofRaw raw (bodyLine (lineAt source opened) raw) = code ∧ cursor.log = cursor'.log := by
  have captured : ∀ {raw : Text} {close : Nat}, Spans source opened ('{' :: raw ++ ['}']) (close + 1) →
      slice source (opened + 1) close = raw ∧
      lineAt source (opened + 1 + (raw.length - (trimStart raw).length)) =
        bodyLine (lineAt source opened) raw := by
    intro raw close spans
    refine ⟨spans.slice_inside, ?_⟩
    obtain ⟨brace, inside, -⟩ := spans.inside
    have line : lineAt source (opened + 1) = lineAt source opened := by simpa using brace.lineAt_eq
    calc lineAt source (opened + 1 + (raw.length - (trimStart raw).length))
        = bodyLine (lineAt source (opened + 1)) raw := bodyLine_eq inside
      _ = bodyLine (lineAt source opened) raw := by rw [line]
  simp only [body, bind_eq_ok_iff, ofExcept_eq_ok_iff, moveTo_eq_ok_iff, pure_eq_ok_iff,
    matchBracket_brace_iff braced]
  constructor
  · rintro ⟨close, _, ⟨⟨raw, spans, encloses⟩, rfl⟩, _, _, rfl, rfl, rfl⟩
    obtain ⟨inner, line⟩ := captured spans
    refine ⟨raw, spans, encloses, ?_, rfl⟩
    rw [inner, line]
  · rintro ⟨raw, spans, encloses, rfl, sameLog⟩
    obtain ⟨close, stop⟩ : ∃ close, cursor'.index = close + 1 :=
      ⟨opened + raw.length + 1, by rw [spans.width]; simp; omega⟩
    rw [stop] at spans
    obtain ⟨inner, line⟩ := captured spans
    refine ⟨close, cursor, ⟨⟨raw, spans, encloses⟩, rfl⟩, (), cursor', ?_, ?_, rfl⟩
    · rw [sameLog, ← stop]
    · rw [inner, line]

/-- A function is read exactly as it is written, behind a text that stands in front of it. -/
theorem function_iff (cursor : Cursor) {start : Nat} {front parameters : Text} {code : Code} :
    (∃ head rest, FunctionHead parameters head ∧ source.drop start = front ++ head ++ rest ∧
        Braced rest ∧ body source (indexOf source rest) cursor = .ok code cursor') ↔
      ∃ function, Spans source start (front ++ function) cursor'.index ∧
        FunctionText .accepted (lineAt source start + front.count '\n') function parameters code ∧
        cursor.log = cursor'.log := by
  constructor
  · rintro ⟨head, rest, function, here, braced, ran⟩
    have lead : Spans source start (front ++ head) (start + (front ++ head).length) := .of_drop here rfl
    have behind := lead.drop_stop here
    obtain ⟨more, rfl⟩ := id braced
    rw [← behind] at braced ran
    rw [indexOf_drop (by rw [behind]; simp)] at ran
    obtain ⟨raw, spans, encloses, rfl, sameLog⟩ := (body_eq_ok_iff braced).mp ran
    refine ⟨head ++ '{' :: raw ++ ['}'], ?_, ?_, sameLog⟩
    · have whole := lead.append spans
      simpa using whole
    · rw [lead.lineAt_eq, List.count_append, ← Nat.add_assoc]
      exact .intro function trivial encloses
  · rintro ⟨_, spans, written, sameLog⟩
    obtain @⟨_, head, raw, function, -, encloses⟩ := written
    have whole : Spans source start ((front ++ head) ++ ('{' :: raw ++ ['}'])) cursor'.index := by
      simpa using spans
    obtain ⟨lead, inner⟩ := whole.split
    have braced : Braced (source.drop (start + (front ++ head).length)) := ⟨_, inner.here⟩
    refine ⟨head, _, function, lead.here, braced, ?_⟩
    rw [indexOf_drop (by rw [inner.here]; simp), body_eq_ok_iff braced]
    refine ⟨raw, inner, encloses, ?_, sameLog⟩
    rw [lead.lineAt_eq, List.count_append, ← Nat.add_assoc]

/-! ## The alternatives -/

variable {α : Type}

/-- A pattern is searched behind a gap, and the cursor moves there if it is found. -/
theorem find_eq_ok_iff {pattern : Text → Option α} {outcome : Option α} :
    find source pattern cursor = .ok outcome cursor' ↔
      ∃ start, skip source cursor.index = .ok start ∧ pattern (source.drop start) = outcome ∧
        { cursor with index := if outcome.isSome then start else cursor.index } = cursor' := by
  simp only [find, bind_eq_ok_iff, position_eq_ok_iff, skipGap_eq_ok_iff, rest_eq_ok_iff]
  constructor
  · rintro ⟨_, _, ⟨rfl, rfl⟩, _, _, ⟨start, skipped, rfl⟩, _, _, ⟨rfl, rfl⟩, ran⟩
    refine ⟨start, skipped, ?_⟩
    cases here : pattern (source.drop start) with
    | some found =>
      simp only [here, pure_eq_ok_iff] at ran
      obtain ⟨rfl, rfl⟩ := ran
      exact ⟨rfl, rfl⟩
    | none =>
      simp only [here, bind_eq_ok_iff, moveTo_eq_ok_iff, pure_eq_ok_iff] at ran
      obtain ⟨_, _, rfl, rfl, rfl⟩ := ran
      exact ⟨rfl, rfl⟩
  · rintro ⟨start, skipped, rfl, rfl⟩
    refine ⟨_, _, ⟨rfl, rfl⟩, (), _, ⟨start, skipped, rfl⟩, _, _, ⟨rfl, rfl⟩, ?_⟩
    cases pattern (source.drop start) <;> rfl

/-- A hook is read exactly where one is written. -/
theorem hook_eq_some_iff {name : Text} {code : Code} :
    hook source name cursor = .ok (some code) cursor' ↔
      ∃ start key parameters function, skip source cursor.index = .ok start ∧ Key name key ∧
        isBlankText parameters = true ∧ Spans source start (key ++ function) cursor'.index ∧
        FunctionText .accepted (lineAt source start + key.count '\n') function parameters code ∧
        cursor.log = cursor'.log := by
  simp only [hook, bind_eq_ok_iff, find_eq_ok_iff]
  constructor
  · rintro ⟨outcome, _, ⟨start, skipped, found, rfl⟩, ran⟩
    cases outcome with
    | none => simp at ran
    | some text =>
      simp only [Option.isSome_some, if_true, bind_eq_ok_iff, pure_eq_ok_iff, Option.some.injEq]
        at ran
      obtain ⟨_, _, ran, rfl, rfl⟩ := ran
      obtain ⟨key, parameters, head, isKey, function, blank, here, braced⟩ :=
        hook?_eq_some_iff.mp found
      obtain ⟨written, spans, isFunction, sameLog⟩ :=
        (function_iff _).mp ⟨head, text, function, here, braced, ran⟩
      exact ⟨start, key, parameters, written, skipped, isKey, blank, spans, isFunction, sameLog⟩
  · rintro ⟨start, key, parameters, written, skipped, isKey, blank, spans, isFunction, sameLog⟩
    obtain ⟨head, text, function, here, braced, ran⟩ :=
      (function_iff { cursor with index := start }).mpr
        ⟨written, spans, isFunction, sameLog⟩
    have found := hook?_eq_some_iff.mpr
      ⟨key, parameters, head, isKey, function, blank, here, braced⟩
    refine ⟨some text, _, ⟨start, skipped, found, rfl⟩, ?_⟩
    simp [ran]

/-- No hook is read exactly where its pattern does not fit. -/
theorem hook_eq_none_iff {name : Text} :
    hook source name cursor = .ok none cursor' ↔
      ∃ start, skip source cursor.index = .ok start ∧ hook? name (source.drop start) = none ∧
        cursor = cursor' := by
  simp only [hook, bind_eq_ok_iff, find_eq_ok_iff]
  constructor
  · rintro ⟨outcome, _, ⟨start, skipped, found, rfl⟩, ran⟩
    cases outcome with
    | none => exact ⟨start, skipped, found, by simpa using ran⟩
    | some text => simp at ran
  · rintro ⟨start, skipped, absent, rfl⟩
    exact ⟨none, _, ⟨start, skipped, absent, rfl⟩, by simp⟩

/-- A test under a phrase is read exactly where one is written. -/
theorem quotedTest_eq_some_iff {index opened : Nat} {name : Text} :
    quotedTest source index = .ok (some (name, opened)) ↔
      ∃ quote key parameters head rest, Mode.isQuote quote = true ∧ LiteralContent quote name ∧
        name ≠ [] ∧ Key (quote :: name ++ [quote]) key ∧ FunctionHead parameters head ∧
        isBlankText parameters = true ∧ source.drop index = key ++ head ++ rest ∧ Braced rest ∧
        indexOf source rest = opened := by
  constructor
  · intro found
    rw [quotedTest] at found
    split at found
    · simp at found
    · next quote text here =>
      split at found
      · next isQuote =>
        cases matched : matchLiteral source index with
        | error error => simp [matched, bind, Except.bind] at found
        | ok close =>
          obtain ⟨content, spans, holds⟩ := (matchLiteral_eq_ok_iff
            (Mode.isDelimiter_of_isQuote isQuote) (by rw [here]; rfl)).mp matched
          simp only [matched, bind, Except.bind, spans.slice_inside] at found
          split at found
          · simp [pure, Except.pure] at found
          · next nonempty =>
            simp only [pure, Except.pure, Except.ok.injEq, Option.map_eq_some_iff,
              Option.bind_eq_some_iff, key?_eq_some_iff, plainFunction?_eq_some_iff,
              Prod.mk.injEq] at found
            obtain ⟨rest, ⟨_, ⟨tail, isKey, behind, -⟩, parameters, head, function, blank, rfl,
              braced⟩, rfl, rfl⟩ := found
            refine ⟨quote, _, parameters, head, rest, isQuote, holds, by simpa using nonempty,
              isKey.append _, function, blank, ?_, braced, rfl⟩
            rw [spans.here, behind]
            simp
      · simp at found
  · rintro ⟨quote, key, parameters, head, rest, isQuote, holds, nonempty, isKey, function, blank,
      here, braced, rfl⟩
    obtain ⟨tail, rfl, colon, -⟩ := isKey.split
    have first : source.drop index = (quote :: name ++ [quote]) ++ (tail ++ (head ++ rest)) := by
      simpa using here
    have spans : Spans source index (quote :: name ++ [quote]) (index + name.length + 1 + 1) :=
      .of_drop first (by simp; omega)
    have matched := (matchLiteral_eq_ok_iff (Mode.isDelimiter_of_isQuote isQuote)
      (by rw [first]; rfl)).mpr ⟨name, spans, holds⟩
    have found : key? [] (tail ++ (head ++ rest)) = some (head ++ rest) :=
      key?_eq_some_iff.mpr ⟨tail, colon, rfl, function.stops rest⟩
    have plain : plainFunction? (head ++ rest) = some rest :=
      plainFunction?_eq_some_iff.mpr ⟨parameters, head, function, blank, rfl, braced⟩
    have inside := spans.slice_inside
    have behind := spans.drop_stop first
    have begins : ∃ text, source.drop index = quote :: text := ⟨_, first⟩
    obtain ⟨text, begins⟩ := begins
    simp [quotedTest, begins, isQuote, matched, bind, Except.bind, inside, nonempty, behind, found, plain, pure, Except.pure]

/-- A name that is no quoted phrase, or an empty one, is no quoted test. -/
theorem quotedTest_eq_none {index : Nat}
    (other : (source.drop index).head?.any Mode.isQuote = false ∨
      (placeholder? (source.drop index)).isSome = true) :
    quotedTest source index = .ok none := by
  rcases other with noQuote | empty
  · rw [quotedTest]
    split
    · rfl
    · next quote text here =>
      rw [here, List.head?_cons, Option.any_some] at noQuote
      simp [noQuote]
  · obtain ⟨body, found⟩ := Option.isSome_iff_exists.mp empty
    obtain ⟨quote, key, parameters, head, isQuote, isKey, -, here, -⟩ :=
      placeholder?_eq_some_iff.mp found
    obtain ⟨tail, rfl, -, -⟩ := isKey.split
    have first : source.drop index = (quote :: [] ++ [quote]) ++ (tail ++ (head ++ body)) := by
      simpa using here
    have spans : Spans source index (quote :: [] ++ [quote]) (index + 1 + 1) := .of_drop first rfl
    have matched := (matchLiteral_eq_ok_iff (Mode.isDelimiter_of_isQuote isQuote)
      (by rw [first]; rfl)).mpr ⟨[], spans, .nil⟩
    have inside := spans.slice_inside
    rw [quotedTest, first]
    simp [isQuote, matched, bind, Except.bind, inside, pure, Except.pure]

/-- A marker in front of a test is no quote. -/
theorem test?_eq_none_of_isQuote {text : Text} (quoted : text.head?.any Mode.isQuote = true) :
    test? text = none := by
  rw [Option.eq_none_iff_forall_ne_some]
  rintro ⟨name, body⟩ found
  obtain ⟨mark, key, parameters, head, isMark, isKey, -, -, rfl, -⟩ := test?_eq_some_iff.mp found
  obtain ⟨tail, rfl, -, -⟩ := isKey.split
  cases isMark <;> simp [Mode.isQuote] at quoted

/-- A test is read exactly where one is written. -/
theorem test_eq_some_iff {found : Test} :
    test source cursor = .ok (some found) cursor' ↔
      ∃ start text, skip source cursor.index = .ok start ∧ Spans source start text cursor'.index ∧
        MemberText .accepted (lineAt source start) text (.test found) ∧
        cursor.log = cursor'.log := by
  simp only [test, bind_eq_ok_iff, position_eq_ok_iff, skipGap_eq_ok_iff, rest_eq_ok_iff]
  constructor
  · rintro ⟨_, _, ⟨rfl, rfl⟩, _, _, ⟨start, skipped, rfl⟩, _, _, ⟨rfl, rfl⟩, ran⟩
    refine ⟨start, ?_⟩
    cases marked : test? (source.drop start) with
    | some head =>
      obtain ⟨name, text⟩ := head
      simp only [marked, bind_eq_ok_iff, pure_eq_ok_iff, Option.some.injEq] at ran
      obtain ⟨code, _, ran, rfl, rfl⟩ := ran
      obtain ⟨mark, key, parameters, head, isMark, isKey, function, blank, here, braced⟩ :=
        test?_eq_some_iff.mp marked
      obtain ⟨written, spans, isFunction, sameLog⟩ :=
        (function_iff _).mp ⟨head, text, function, here, braced, ran⟩
      exact ⟨_, skipped, spans, .test isMark isKey blank isFunction, sameLog⟩
    | none =>
      simp only [marked, bind_eq_ok_iff, position_eq_ok_iff, ofExcept_eq_ok_iff] at ran
      obtain ⟨_, _, ⟨rfl, rfl⟩, outcome, _, ⟨quoted, rfl⟩, ran⟩ := ran
      cases outcome with
      | none => simp at ran
      | some head =>
        obtain ⟨name, opened⟩ := head
        simp only [bind_eq_ok_iff, pure_eq_ok_iff, Option.some.injEq] at ran
        obtain ⟨code, _, ran, rfl, rfl⟩ := ran
        obtain ⟨quote, key, parameters, head, text, isQuote, content, nonempty, isKey, function,
          blank, here, braced, rfl⟩ := quotedTest_eq_some_iff.mp quoted
        obtain ⟨written, spans, isFunction, sameLog⟩ :=
          (function_iff _).mp ⟨head, text, function, here, braced, ran⟩
        exact ⟨_, skipped, spans, .quotedTest isQuote content nonempty isKey blank isFunction,
          sameLog⟩
  · rintro ⟨start, text, skipped, spans, written, sameLog⟩
    refine ⟨_, _, ⟨rfl, rfl⟩, (), _, ⟨start, skipped, rfl⟩, _, _, ⟨rfl, rfl⟩, ?_⟩
    cases written with
    | test isMark isKey blank isFunction =>
      obtain ⟨head, text, function, here, braced, ran⟩ :=
        (function_iff { cursor with index := start }).mpr ⟨_, spans, isFunction, sameLog⟩
      have found := test?_eq_some_iff.mpr
        ⟨_, _, _, head, isMark, isKey, function, blank, here, braced⟩
      simp [found, ran]
    | @quotedTest quote name key _ _ _ isQuote content nonempty isKey blank isFunction =>
      obtain ⟨head, text, function, here, braced, ran⟩ :=
        (function_iff { cursor with index := start }).mpr ⟨_, spans, isFunction, sameLog⟩
      have quoted := quotedTest_eq_some_iff.mpr ⟨_, _, _, head, text, isQuote, content, nonempty,
        isKey, function, blank, here, braced, rfl⟩
      have absent : test? (source.drop start) = none := by
        apply test?_eq_none_of_isQuote
        obtain ⟨tail, rfl, -, -⟩ := isKey.split
        simp [here, isQuote]
      simp [absent, quoted, ran, and_assoc]

/-- No test is read exactly where none of its patterns fits. -/
theorem test_eq_none_iff :
    test source cursor = .ok none cursor' ↔
      ∃ start, skip source cursor.index = .ok start ∧ test? (source.drop start) = none ∧
        quotedTest source start = .ok none ∧ cursor = cursor' := by
  simp only [test, bind_eq_ok_iff, position_eq_ok_iff, skipGap_eq_ok_iff, rest_eq_ok_iff]
  constructor
  · rintro ⟨_, _, ⟨rfl, rfl⟩, _, _, ⟨start, skipped, rfl⟩, _, _, ⟨rfl, rfl⟩, ran⟩
    refine ⟨start, skipped, ?_⟩
    cases marked : test? (source.drop start) with
    | some head => simp [marked] at ran
    | none =>
      simp only [marked, bind_eq_ok_iff, position_eq_ok_iff, ofExcept_eq_ok_iff] at ran
      obtain ⟨_, _, ⟨rfl, rfl⟩, outcome, _, ⟨quoted, rfl⟩, ran⟩ := ran
      cases outcome with
      | none => exact ⟨rfl, quoted, by simpa using ran⟩
      | some head => simp at ran
  · rintro ⟨start, skipped, absent, unquoted, rfl⟩
    refine ⟨_, _, ⟨rfl, rfl⟩, (), _, ⟨start, skipped, rfl⟩, _, _, ⟨rfl, rfl⟩, ?_⟩
    simp [absent, unquoted, and_assoc]

/-- A body is read exactly where its brace matches. -/
theorem exists_body_eq_ok_iff {opened : Nat} :
    (∃ code, body source opened cursor = .ok code cursor') ↔
      ∃ close, matchBracket source opened = .ok close ∧ { cursor with index := close + 1 } = cursor' := by
  simp only [body, bind_eq_ok_iff, ofExcept_eq_ok_iff, moveTo_eq_ok_iff, pure_eq_ok_iff]
  constructor
  · rintro ⟨_, close, _, ⟨matched, rfl⟩, _, _, rfl, -, rfl⟩
    exact ⟨close, matched, rfl⟩
  · rintro ⟨close, matched, rfl⟩
    exact ⟨_, close, cursor, ⟨matched, rfl⟩, (), _, rfl, rfl, rfl⟩

/-- A member without a name is read exactly where one is written. -/
theorem placeholder_eq_true_iff :
    placeholder source cursor = .ok true cursor' ↔
      ∃ start text, skip source cursor.index = .ok start ∧ Spans source start text cursor'.index ∧
        MemberText .accepted (lineAt source start) text .placeholder ∧
        cursor.log = cursor'.log := by
  simp only [placeholder, bind_eq_ok_iff, find_eq_ok_iff]
  constructor
  · rintro ⟨outcome, _, ⟨start, skipped, found, rfl⟩, ran⟩
    cases outcome with
    | none => simp at ran
    | some text =>
      obtain ⟨quote, key, parameters, head, isQuote, isKey, function, here, braced⟩ :=
        placeholder?_eq_some_iff.mp found
      simp only [Option.isSome_some, if_true, bind_eq_ok_iff, ofExcept_eq_ok_iff, moveTo_eq_ok_iff,
        pure_eq_ok_iff] at ran
      obtain ⟨close, _, ⟨matched, rfl⟩, _, _, rfl, -, rfl⟩ := ran
      obtain ⟨code, ran⟩ := exists_body_eq_ok_iff.mpr ⟨close, matched, rfl⟩
      obtain ⟨written, spans, isFunction, sameLog⟩ :=
        (function_iff _).mp ⟨head, text, function, here, braced, ran⟩
      exact ⟨start, _, skipped, spans, .placeholder isQuote isKey isFunction, sameLog⟩
  · rintro ⟨start, text, skipped, spans, written, sameLog⟩
    cases written with
    | placeholder isQuote isKey isFunction =>
      obtain ⟨head, text, function, here, braced, ran⟩ :=
        (function_iff { cursor with index := start }).mpr ⟨_, spans, isFunction, sameLog⟩
      obtain ⟨close, matched, rfl⟩ := exists_body_eq_ok_iff.mp ⟨_, ran⟩
      have found := placeholder?_eq_some_iff.mpr
        ⟨_, _, _, head, isQuote, isKey, function, here, braced⟩
      refine ⟨some text, _, ⟨start, skipped, found, rfl⟩, ?_⟩
      simp [matched, and_assoc]

/-- No member without a name is read exactly where its pattern does not fit. -/
theorem placeholder_eq_false_iff :
    placeholder source cursor = .ok false cursor' ↔
      ∃ start, skip source cursor.index = .ok start ∧ placeholder? (source.drop start) = none ∧
        cursor = cursor' := by
  simp only [placeholder, bind_eq_ok_iff, find_eq_ok_iff]
  constructor
  · rintro ⟨outcome, _, ⟨start, skipped, found, rfl⟩, ran⟩
    cases outcome with
    | none => exact ⟨start, skipped, found, by simpa using ran⟩
    | some text => simp at ran
  · rintro ⟨start, skipped, absent, rfl⟩
    exact ⟨none, _, ⟨start, skipped, absent, rfl⟩, by simp⟩

/-- A helper method is read exactly where a function stands under an identifier. -/
theorem helper_eq_some_iff {name parameters : Text} {code : Code} :
    helper source cursor = .ok (some ⟨name, parameters, code⟩) cursor' ↔
      ∃ start key function, skip source cursor.index = .ok start ∧ Identifier name ∧ Key name key ∧
        Spans source start (key ++ function) cursor'.index ∧
        FunctionText .accepted (lineAt source start + key.count '\n') function parameters code ∧
        cursor.log = cursor'.log := by
  simp only [helper, bind_eq_ok_iff, find_eq_ok_iff]
  constructor
  · rintro ⟨outcome, _, ⟨start, skipped, found, rfl⟩, ran⟩
    cases outcome with
    | none => simp at ran
    | some head =>
      obtain ⟨name, parameters, text⟩ := head
      simp only [Option.isSome_some, if_true, bind_eq_ok_iff, pure_eq_ok_iff, Option.some.injEq,
        Helper.mk.injEq] at ran
      obtain ⟨_, _, ran, ⟨rfl, rfl, rfl⟩, rfl⟩ := ran
      obtain ⟨key, head, identifier, isKey, function, here, braced⟩ := helper?_eq_some_iff.mp found
      obtain ⟨written, spans, isFunction, sameLog⟩ :=
        (function_iff _).mp ⟨head, text, function, here, braced, ran⟩
      exact ⟨start, key, written, skipped, identifier, isKey, spans, isFunction, sameLog⟩
  · rintro ⟨start, key, written, skipped, identifier, isKey, spans, isFunction, sameLog⟩
    obtain ⟨head, text, function, here, braced, ran⟩ :=
      (function_iff { cursor with index := start }).mpr ⟨written, spans, isFunction, sameLog⟩
    have found := helper?_eq_some_iff.mpr ⟨key, head, identifier, isKey, function, here, braced⟩
    refine ⟨some (name, parameters, text), _, ⟨start, skipped, found, rfl⟩, ?_⟩
    simp [ran]

/-- Directives are read exactly where they are written. -/
theorem should_eq_some_iff {found : Should} :
    should source cursor = .ok (some found) cursor' ↔
      ∃ start text, skip source cursor.index = .ok start ∧ Spans source start text cursor'.index ∧
        MemberText .accepted (lineAt source start) text (.should found) ∧
        cursor.log = cursor'.log := by
  simp only [should, bind_eq_ok_iff, find_eq_ok_iff]
  constructor
  · rintro ⟨outcome, _, ⟨start, skipped, found, rfl⟩, ran⟩
    cases outcome with
    | none => simp at ran
    | some text =>
      obtain ⟨key, isKey, here, more, rfl⟩ := should?_eq_some_iff.mp found
      have lead : Spans source start key (start + key.length) := .of_drop here rfl
      have behind := lead.drop_stop here
      have opened : indexOf source ('{' :: more) = start + key.length := by
        rw [← behind, indexOf_drop (by rw [behind]; simp)]
      simp only [Option.isSome_some, if_true, bind_eq_ok_iff, ofExcept_eq_ok_iff, opened,
        mapError_eq_ok_iff, matchBracket_brace_iff ⟨more, behind⟩] at ran
      obtain ⟨close, _, ⟨⟨raw, spans, encloses⟩, rfl⟩, literal, _, ⟨literalRead, rfl⟩, ran⟩ := ran
      rw [spans.slice_eq] at literalRead
      cases denotes : directives {} (entriesOf literal) with
      | error fault => simp [denotes] at ran
      | ok directives =>
        simp only [denotes, bind_eq_ok_iff, moveTo_eq_ok_iff, pure_eq_ok_iff, Option.some.injEq]
          at ran
        obtain ⟨_, _, rfl, rfl, rfl⟩ := ran
        refine ⟨start, _, skipped, ?_, .should isKey ⟨encloses, literal, literalRead, denotes⟩, rfl⟩
        simpa using lead.append spans
  · rintro ⟨start, _, skipped, spans, written, sameLog⟩
    cases written with
    | @should key raw _ isKey denotes =>
      obtain ⟨encloses, literal, literalRead, denotes⟩ := denotes
      have whole : Spans source start (key ++ ('{' :: raw ++ ['}'])) cursor'.index := by
        simpa using spans
      obtain ⟨lead, inner⟩ := whole.split
      obtain ⟨close, stop⟩ : ∃ close, cursor'.index = close + 1 :=
        ⟨start + key.length + raw.length + 1, by rw [inner.width]; simp; omega⟩
      rw [stop] at inner
      have found := should?_eq_some_iff.mpr ⟨key, isKey, lead.here, _, inner.here⟩
      have matched : matchBracket source (start + key.length) = .ok close :=
        (matchBracket_brace_iff ⟨_, inner.here⟩).mpr ⟨raw, inner, encloses⟩
      refine ⟨some _, _, ⟨start, skipped, found, rfl⟩, ?_⟩
      simp only [Option.isSome_some, if_true, bind_eq_ok_iff, ofExcept_eq_ok_iff,
        mapError_eq_ok_iff, indexOf_drop (show source.drop (start + key.length) ≠ [] by rw [inner.here]; simp)]
      refine ⟨close, _, ⟨matched, rfl⟩, literal, _, ⟨by rw [inner.slice_eq]; exact literalRead, rfl⟩, ?_⟩
      simp [denotes, sameLog, ← stop]

/-- No directives are read exactly where their pattern does not fit. -/
theorem should_eq_none_iff :
    should source cursor = .ok none cursor' ↔
      ∃ start, skip source cursor.index = .ok start ∧ should? (source.drop start) = none ∧
        cursor = cursor' := by
  simp only [should, bind_eq_ok_iff, find_eq_ok_iff]
  constructor
  · rintro ⟨outcome, _, ⟨start, skipped, found, rfl⟩, ran⟩
    cases outcome with
    | none => exact ⟨start, skipped, found, by simpa using ran⟩
    | some text =>
      simp only [bind_eq_ok_iff, ofExcept_eq_ok_iff] at ran
      obtain ⟨close, _, -, literal, _, -, ran⟩ := ran
      cases denotes : directives {} (entriesOf literal) <;> simp [denotes] at ran
  · rintro ⟨start, skipped, absent, rfl⟩
    exact ⟨none, _, ⟨start, skipped, absent, rfl⟩, by simp⟩

end SuiteReader

end JasmineConversion
