import JasmineConversion.Proofs.Spec.Layout
import JasmineConversion.Spec.Writer

/-! # Tests in a spec

In the spec for a test case, the lines with one unit more than the outermost ones that go on with
the words of a test are the heads of its tests. Everything else at this depth starts with another
word, and the bodies of hooks, helper methods and tests are deeper.
-/

namespace JasmineConversion

open Text

/-- Whether a text opens the block of a test. -/
def Text.startsTest (text : Text) : Bool :=
  startsWith "it( ".toList text || startsWith "xit( ".toList text

namespace Spec

/-- Whether a line opens the block of a test behind an indent of `depth` units. -/
def opensTestAt (unit : Text) (depth : Nat) (line : Text) : Bool :=
  startsWith (repeated depth unit ++ "it( ".toList) line ||
    startsWith (repeated depth unit ++ "xit( ".toList) line

/-- The head of the block of a test. -/
def testHead (should : Option Should) (name : Text) : Text :=
  (if should.any (·.isIgnored name) then "xit( ".toList else "it( ".toList) ++ quote name ++
    ", function() \x7b".toList

theorem testHead_ne_nil (should : Option Should) (name : Text) : testHead should name ≠ [] :=
  List.append_ne_nil_of_left_ne_nil (List.append_ne_nil_of_right_ne_nil _ (by simp [quote])) _

/-- The lines of a body at a depth. A body without text has none, and an empty line no indent. -/
def bodyLines (unit : Text) (depth : Nat) (body : Text) : List Text :=
  if body.isEmpty then []
  else (lines body).map fun line => if line.isEmpty then [] else repeated depth unit ++ line

/-- The lines of a test with a body. The body stands between the lines of an expected error if the
directives give one for the test. -/
def testLines (unit : Text) (depth : Nat) (should : Option Should) (name body : Text) : List Text :=
  [repeated depth unit ++ testHead should name] ++
    (match should.bind (·.expectedError name) with
      | some message =>
        [repeated (depth + 1) unit ++ "expect( function() \x7b".toList] ++
          bodyLines unit (depth + 2) body ++
          [repeated (depth + 1) unit ++ ("\x7d ).toThrow( ".toList ++ quote message ++ " );".toList)]
      | none => bodyLines unit (depth + 1) body) ++
    [repeated depth unit ++ "\x7d );".toList]

theorem opensTestAt_nil (unit : Text) (depth : Nat) : opensTestAt unit depth [] = false := by
  unfold opensTestAt
  rw [startsWith_nil (by simp), startsWith_nil (by simp)]
  rfl

/-- A text whose quotes are escaped has only its own characters, backslashes and quotes. -/
theorem mem_of_mem_replaceFrom {c : Char} {skipped : Nat} {previous : Option Char} {text : Text}
    (member : c ∈ replaceFrom bareQuote skipped previous text) : c ∈ text ∨ c = '\\' ∨ c = '"' := by
  fun_induction replaceFrom bareQuote skipped previous text with
  | case1 => cases member
  | case2 skipped previous d rest ih => exact (ih member).imp_left (List.mem_cons_of_mem d)
  | case3 previous d rest width replacement found ih =>
    have same : replacement = ['\\', '"'] := by
      unfold bareQuote at found
      split at found
      · cases found
        rfl
      · cases found
    rcases List.mem_append.mp member with member | member
    · rw [same] at member
      exact .inr (by simpa using member)
    · exact (ih member).imp_left (List.mem_cons_of_mem d)
  | case4 previous d rest absent ih =>
    rcases List.mem_cons.mp member with rfl | member
    · exact .inl List.mem_cons_self
    · exact (ih member).imp_left (List.mem_cons_of_mem d)

/-- A quoted line is a line. -/
theorem newline_not_mem_quote {text : Text} (single : '\n' ∉ text) : '\n' ∉ quote text := by
  intro member
  simp only [quote, List.mem_append, List.mem_singleton] at member
  rcases member with (member | member) | member
  · cases member
  · rcases mem_of_mem_replaceFrom member with member | member | member
    · exact single member
    · cases member
    · cases member
  · cases member

end Spec

namespace Line

/-- Whether a line at depth zero opens the block of a test. -/
def opensTest (line : Line) : Bool :=
  line.depth == 0 && line.text.startsTest

/-- Deeper lines open no test. -/
theorem filter_deeper (code : List Line) : (deeper code).filter opensTest = [] := by
  apply List.filter_eq_nil_iff.mpr
  intro line member
  obtain ⟨inner, -, rfl⟩ := mem_deeper.mp member
  simp [opensTest]

/-- Only the head and the tail of a block may open a test, whatever stands inside. -/
theorem filter_block {head tail : Text} (headSingle : '\n' ∉ head) (tailSingle : '\n' ∉ tail)
    (inner : List Line) :
    (block head inner tail).filter opensTest =
      (if head.startsTest then [⟨0, head⟩] else []) ++ if tail.startsTest then [⟨0, tail⟩] else [] := by
  simp only [block, ofText_of_not_mem headSingle, ofText_of_not_mem tailSingle, List.filter_append,
    filter_deeper, List.append_nil, List.filter_cons, List.filter_nil, opensTest, beq_self_eq_true,
    Bool.true_and]

theorem filter_blank : blank.filter opensTest = [] := rfl

/-- A line that is one unit deeper opens a test behind one unit more. -/
theorem opensTestAt_render {unit : Text} (isUnit : IsUnit unit) (level : Nat) (line : Line) :
    Spec.opensTestAt unit (level + 1) (render unit level ⟨line.depth + 1, line.text⟩) =
      line.opensTest := by
  have it : IsWord "it( ".toList := ⟨by decide, by decide⟩
  have xit : IsWord "xit( ".toList := ⟨by decide, by decide⟩
  obtain ⟨depth, text⟩ := line
  cases text with
  | nil =>
    rw [show render unit level ⟨depth + 1, []⟩ = [] from rfl, Spec.opensTestAt_nil]
    simp [opensTest, Text.startsTest, startsWith, after?]
  | cons c text =>
    rw [render_of_ne_nil level _ (List.cons_ne_nil c text)]
    unfold Spec.opensTestAt opensTest
    cases depth with
    | zero =>
      rw [startsWith_append_append, startsWith_append_append]
      rfl
    | succ depth =>
      rw [← Nat.add_assoc, Nat.add_right_comm, isUnit.startsWith_deeper it _ (Nat.succ_pos _),
        isUnit.startsWith_deeper xit _ (Nat.succ_pos _)]
      rfl

/-- An outermost line opens no test behind one unit more. -/
theorem opensTestAt_render_outer {unit : Text} (isUnit : IsUnit unit) (level : Nat) {text : Text}
    (stops : Stops isIndent text) :
    Spec.opensTestAt unit (level + 1) (render unit level ⟨0, text⟩) = false := by
  cases text with
  | nil => exact Spec.opensTestAt_nil unit _
  | cons c text =>
    rw [render_of_ne_nil level _ (List.cons_ne_nil c text)]
    unfold Spec.opensTestAt
    rw [Nat.add_zero level, isUnit.startsWith_shallower stops level Nat.one_pos,
      isUnit.startsWith_shallower stops level Nat.one_pos]
    rfl

end Line

namespace Spec

open Line

/-- The children of a suite are written one by one, set apart. -/
theorem containers_eq (fixture : Text) (children : List Container) :
    containers fixture children = children.flatMap fun child => apart (container fixture child) := by
  induction children with
  | nil => rfl
  | cons child children ih => rw [containers, ih, List.flatMap_cons]

theorem container_ne_nil (fixture : Text) (tree : Container) : container fixture tree ≠ [] := by
  cases tree <;> exact block_ne_nil _ _ _

@[simp] theorem single_apart {inner : List Line} : Single (apart inner) ↔ Single inner := by
  simp [apart]

/-- The lines of a test are single. -/
theorem single_test (should : Option Should) (found : Test) : Single (test should found) := by
  apply single_block.mpr
  cases should.bind fun should => should.expectedError found.name with
  | none => exact single_ofBody _
  | some message => exact single_block.mpr (single_ofBody _)

/-- The lines that create the fixture. -/
def creation (fixture : Text) : (constructorName : Option Text) → List Line
  | some name =>
    ofText (fixture ++ " = new ".toList ++ name ++ "();".toList) ++ ofText (fixture ++ ".setUp();".toList)
  | none => ofText (fixture ++ " = \x7b\x7d;".toList)

/-- The hook before each test is the declaration of the fixture and a block with its creation and the
body. -/
theorem beforeEach_eq (fixture : Text) (constructorName : Option Text) (body : Text) :
    beforeEach fixture constructorName body =
      ofText ("var ".toList ++ fixture ++ [';']) ++ blank ++ functionBlock "beforeEach".toList
        (creation fixture constructorName ++ if body.isEmpty then [] else blank ++ ofText body) callTail := by
  cases constructorName <;> rfl

/-- The lines of the hook before each test are single. -/
theorem single_beforeEach (fixture : Text) (name : Option Text) (body : Text) :
    Single (beforeEach fixture name body) := by
  unfold beforeEach functionBlock
  cases name <;> by_cases empty : body.isEmpty = true <;> simp [empty]

/-- The lines of the hook after each test are single. -/
theorem single_afterEach (fixture : Text) (name : Option Text) (body : Text) :
    Single (afterEach fixture name body) := by
  unfold afterEach functionBlock
  cases name <;> by_cases empty : body.isEmpty = true <;> simp [empty]

/-- The body of a hook in the spec for a test case. A directly constructed one always has both hooks. -/
def hookBody? (found : TestCase) (hook : Option Code) : Option Text :=
  if found.constructorName.isSome then some ((hook.map (·.body)).getD []) else hook.map (·.body)

/-- Hooks are made of at most two blocks. -/
theorem hooks_eq (fixture : Text) (found : TestCase) :
    hooks fixture found =
      ((hookBody? found found.setUp).map fun body =>
        beforeEach fixture found.constructorName body ++ blank).getD [] ++
      ((hookBody? found found.tearDown).map fun body =>
        afterEach fixture found.constructorName body ++ blank).getD [] := by
  unfold hooks hookBody?
  by_cases direct : found.constructorName.isSome = true <;> simp [direct]

theorem single_hooks (fixture : Text) (found : TestCase) : Single (hooks fixture found) := by
  rw [hooks_eq]
  cases hookBody? found found.setUp <;> cases hookBody? found found.tearDown <;>
    simp [single_beforeEach, single_afterEach]

/-- The lines of a test case are single. -/
theorem single_testCase (fixture : Text) (found : TestCase) : Single (testCase fixture found) := by
  unfold testCase titledBlock
  simp only [single_block, single_append, single_flatMap, single_apart]
  exact ⟨⟨single_hooks fixture found, fun _ _ => single_block.mpr (single_ofBody _)⟩,
    fun found _ => single_test _ found⟩

/-! ## Heads of tests -/

/-- No line of the hooks opens a test. -/
theorem filter_hooks {fixture : Text} (single : '\n' ∉ fixture) (found : TestCase) :
    (hooks fixture found).filter opensTest = [] := by
  have before : ∀ body, (beforeEach fixture found.constructorName body).filter opensTest = [] := by
    intro body
    unfold beforeEach functionBlock
    simp only [List.filter_append, filter_blank]
    rw [ofText_of_not_mem (by simp [single]), filter_block (by decide) (by decide)]
    rfl
  have after : ∀ body, (afterEach fixture found.constructorName body).filter opensTest = [] := by
    intro body
    unfold afterEach functionBlock
    rw [filter_block (by decide) (by decide)]
    rfl
  rw [hooks_eq]
  cases hookBody? found found.setUp <;> cases hookBody? found found.tearDown <;>
    simp [before, after, filter_blank]

/-- No line of a helper method opens a test. -/
theorem filter_helper {found : Helper} (name : '\n' ∉ found.name) (parameters : '\n' ∉ found.parameters) :
    (helper found).filter opensTest = [] := by
  unfold helper
  rw [filter_block (by simp [name, parameters]) (by decide)]
  rfl

/-- The head of a test starts one. -/
theorem startsTest_testHead (should : Option Should) (name : Text) :
    (testHead should name).startsTest = true := by
  unfold testHead
  split <;> rfl

/-- The head of a test with a name on one line is on one line. -/
theorem newline_not_mem_testHead (should : Option Should) {name : Text} (single : '\n' ∉ name) :
    '\n' ∉ testHead should name := by
  unfold testHead
  split <;> simp [newline_not_mem_quote single]

/-- The block of a test. -/
theorem test_eq (should : Option Should) (found : Test) :
    test should found =
      block (testHead should found.name)
        (match should.bind (·.expectedError found.name) with
          | some message => functionBlock "expect".toList (ofBody found.code.body)
              ("\x7d ).toThrow( ".toList ++ quote message ++ " );".toList)
          | none => ofBody found.code.body)
        callTail := by
  unfold test titledBlock testHead
  dsimp only
  split <;> rfl

/-- Of the lines of a test only its head opens one. -/
theorem filter_test (should : Option Should) {found : Test} (single : '\n' ∉ found.name) :
    (test should found).filter opensTest = [⟨0, testHead should found.name⟩] := by
  rw [test_eq, filter_block (newline_not_mem_testHead should single) (by decide),
    startsTest_testHead]
  rfl

/-- The lines inside the block of a test case. -/
def inside (fixture : Text) (found : TestCase) : List Line :=
  hooks fixture found ++ found.helpers.flatMap (fun helper => apart (Spec.helper helper)) ++
    found.tests.flatMap fun test => apart (Spec.test found.should test)

/-- Of the lines inside a test case the heads of its tests open one, in order. -/
theorem filter_inside {fixture : Text} {found : TestCase} (fixtureSingle : '\n' ∉ fixture)
    (helpers : ∀ helper ∈ found.helpers, '\n' ∉ helper.name ∧ '\n' ∉ helper.parameters)
    (tests : ∀ test ∈ found.tests, '\n' ∉ test.name) :
    (inside fixture found).filter opensTest =
      found.tests.map fun test => ⟨0, testHead found.should test.name⟩ := by
  have ofHelpers : ∀ helper ∈ found.helpers, (apart (Spec.helper helper)).filter opensTest = [] := by
    intro helper member
    obtain ⟨name, parameters⟩ := helpers helper member
    simp [apart, filter_helper name parameters, filter_blank]
  have ofTests : ∀ test ∈ found.tests, (apart (Spec.test found.should test)).filter opensTest =
      [⟨0, testHead found.should test.name⟩] := by
    intro test member
    simp [apart, filter_test _ (tests test member), filter_blank]
  unfold inside
  rw [List.filter_append, List.filter_append, filter_hooks fixtureSingle, List.filter_flatMap,
    List.filter_flatMap, List.flatMap_eq_nil_iff.mpr ofHelpers, List.map_eq_flatMap, List.flatMap_def,
    List.flatMap_def, List.map_congr_left ofTests]
  rfl

/-- The head of the block of a container. -/
def containerHead (name : Text) : Text :=
  "describe( ".toList ++ quote name ++ ", function() \x7b".toList

theorem containerHead_ne_nil (name : Text) : containerHead name ≠ [] :=
  List.cons_ne_nil _ _

/-- The head of a container with a name on one line is on one line. -/
theorem newline_not_mem_containerHead {name : Text} (single : '\n' ∉ name) :
    '\n' ∉ containerHead name := by
  unfold containerHead
  rw [List.mem_append, List.mem_append]
  rintro ((member | member) | member)
  · revert member; decide
  · exact newline_not_mem_quote single member
  · revert member; decide

/-- The lines of the spec for a test case are its head, what is inside one unit deeper, and its tail. -/
theorem lines_write {unit fixture : Text} (isUnit : IsUnit unit) (level : Nat) {found : TestCase}
    (single : '\n' ∉ found.name) :
    lines (write ⟨unit, level, fixture⟩ (.testCase found)) =
      render unit level ⟨0, containerHead found.name⟩ ::
        (inside fixture found).map (fun line => render unit level ⟨line.depth + 1, line.text⟩) ++
          [render unit level ⟨0, callTail⟩] := by
  have blocked : testCase fixture found =
      ⟨0, containerHead found.name⟩ :: deeper (inside fixture found) ++ [⟨0, callTail⟩] := by
    have head : '\n' ∉ containerHead found.name := newline_not_mem_containerHead single
    change block (containerHead found.name) (inside fixture found) callTail = _
    rw [block, ofText_of_not_mem head, ofText_of_not_mem (show '\n' ∉ callTail by decide)]
    rfl
  have nonempty : testCase fixture found ≠ [] := by simp [blocked]
  change lines (renderAll unit level (testCase fixture found)) = _
  rw [lines_renderAll isUnit.newline_not_mem level nonempty (single_testCase fixture found), blocked]
  simp [deeper]

/-- Tests are written once each and in their order, and nothing else is taken for a test. -/
theorem filter_lines_write {unit fixture : Text} (isUnit : IsUnit unit) (level : Nat) {found : TestCase}
    (name : '\n' ∉ found.name) (fixtureSingle : '\n' ∉ fixture)
    (helpers : ∀ helper ∈ found.helpers, '\n' ∉ helper.name ∧ '\n' ∉ helper.parameters)
    (tests : ∀ test ∈ found.tests, '\n' ∉ test.name) :
    (lines (write ⟨unit, level, fixture⟩ (.testCase found))).filter (opensTestAt unit (level + 1)) =
      found.tests.map fun test => repeated (level + 1) unit ++ testHead found.should test.name := by
  have headOpens := opensTestAt_render_outer isUnit level
    (show Stops isIndent (containerHead found.name) from (stops_cons _ _ _).mpr (by decide))
  have tailOpens := opensTestAt_render_outer isUnit level (show Stops isIndent callTail by decide)
  have inner : ((inside fixture found).map fun line => render unit level ⟨line.depth + 1, line.text⟩).filter
      (opensTestAt unit (level + 1)) =
      found.tests.map fun test => repeated (level + 1) unit ++ testHead found.should test.name := by
    rw [List.filter_map]
    have same : (opensTestAt unit (level + 1) ∘ fun line : Line =>
        render unit level ⟨line.depth + 1, line.text⟩) = opensTest :=
      funext (opensTestAt_render isUnit level)
    rw [same, filter_inside fixtureSingle helpers tests, List.map_map]
    apply List.map_congr_left
    intro test _
    exact render_of_ne_nil level 1 (testHead_ne_nil _ _)
  rw [lines_write isUnit level name]
  simp [headOpens, tailOpens, inner]

/-! ## Bodies of tests -/

/-- A body is written line by line at its depth. -/
theorem render_ofBody (unit : Text) (level depth : Nat) (body : Text) :
    (ofBody body).map (fun line => render unit level ⟨line.depth + depth, line.text⟩) =
      bodyLines unit (level + depth) body := by
  unfold ofBody bodyLines
  split
  · rfl
  · rw [ofText, List.map_map]
    apply List.map_congr_left
    intro line _
    cases line with
    | nil => rfl
    | cons c line =>
      simp only [Function.comp, Nat.zero_add]
      exact render_of_ne_nil level depth (List.cons_ne_nil c line)

/-- A block is put together from its head and its tail and the lines inside, one unit deeper. -/
theorem render_block (unit : Text) {head tail : Text} (level depth : Nat) (headSingle : '\n' ∉ head)
    (headNonempty : head ≠ []) (tailSingle : '\n' ∉ tail) (tailNonempty : tail ≠ []) (inner : List Line) :
    (block head inner tail).map (fun line => render unit level ⟨line.depth + depth, line.text⟩) =
      [repeated (level + depth) unit ++ head] ++
        inner.map (fun line => render unit level ⟨line.depth + (depth + 1), line.text⟩) ++
        [repeated (level + depth) unit ++ tail] := by
  have succ : ∀ line : Line, line.depth + 1 + depth = line.depth + (depth + 1) := fun line => by omega
  rw [block, ofText_of_not_mem headSingle, ofText_of_not_mem tailSingle]
  simp only [List.map_append, List.map_cons, List.map_nil, deeper, List.map_map, Function.comp_def,
    Nat.zero_add, render_of_ne_nil level depth headNonempty, render_of_ne_nil level depth tailNonempty, succ]

/-- The block of a test is written as its lines. -/
theorem render_test (unit : Text) (level : Nat) {should : Option Should} {found : Test}
    (name : '\n' ∉ found.name)
    (messages : ∀ message, should.bind (·.expectedError found.name) = some message → '\n' ∉ message) :
    (test should found).map (fun line => render unit level ⟨line.depth + 1, line.text⟩) =
      testLines unit (level + 1) should found.name found.code.body := by
  rw [test_eq, render_block unit level 1 (newline_not_mem_testHead should name) (testHead_ne_nil _ _)
    (show '\n' ∉ callTail by decide) (show callTail ≠ [] by decide)]
  unfold testLines
  cases expected : should.bind fun should => should.expectedError found.name with
  | none =>
    simp only [render_ofBody]
    rfl
  | some message =>
    have tail : '\n' ∉ "\x7d ).toThrow( ".toList ++ quote message ++ " );".toList := by
      rw [List.mem_append, List.mem_append]
      rintro ((member | member) | member)
      · revert member; decide
      · exact newline_not_mem_quote (messages message expected) member
      · revert member; decide
    have body := render_block unit level 2 (show '\n' ∉ "expect( function() \x7b".toList by decide)
      (by decide) tail (by simp) (ofBody found.code.body)
    rw [render_ofBody] at body
    change [_] ++ ((block "expect( function() \x7b".toList (ofBody found.code.body) _).map _) ++ [_] = _
    rw [body]
    rfl

/-- The lines of the spec for a test case end with those of its tests, each apart from the others. -/
theorem lines_write_tests {unit fixture : Text} (isUnit : IsUnit unit) (level : Nat) {found : TestCase}
    (name : '\n' ∉ found.name) (tests : ∀ test ∈ found.tests, '\n' ∉ test.name)
    (messages : ∀ test message, found.should.bind (·.expectedError test) = some message → '\n' ∉ message) :
    ∃ front, lines (write ⟨unit, level, fixture⟩ (.testCase found)) =
      front ++ found.tests.flatMap (fun test =>
        [[]] ++ testLines unit (level + 1) found.should test.name test.code.body ++ [[]]) ++
        [repeated level unit ++ callTail] := by
  have each : ∀ test ∈ found.tests, (apart (Spec.test found.should test)).map
      (fun line => render unit level ⟨line.depth + 1, line.text⟩) =
        [[]] ++ testLines unit (level + 1) found.should test.name test.code.body ++ [[]] := by
    intro test member
    rw [apart, List.map_append, List.map_append, render_test unit level (tests test member) (messages _)]
    rfl
  refine ⟨render unit level ⟨0, containerHead found.name⟩ ::
    (hooks fixture found ++ found.helpers.flatMap fun helper => apart (Spec.helper helper)).map
      fun line => render unit level ⟨line.depth + 1, line.text⟩, ?_⟩
  have written : (found.tests.flatMap fun test => apart (Spec.test found.should test)).map
      (fun line => render unit level ⟨line.depth + 1, line.text⟩) =
        found.tests.flatMap fun test =>
          [[]] ++ testLines unit (level + 1) found.should test.name test.code.body ++ [[]] := by
    rw [List.map_flatMap, List.flatMap_def, List.map_congr_left each, ← List.flatMap_def]
  rw [lines_write isUnit level name, inside, List.map_append, written,
    render_of_ne_nil level 0 (show callTail ≠ [] by decide)]
  simp only [List.cons_append, List.append_assoc, Nat.add_zero]

end Spec

end JasmineConversion
