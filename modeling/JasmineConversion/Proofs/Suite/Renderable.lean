import JasmineConversion.Proofs.Suite.Lines
import JasmineConversion.Proofs.Suite.Rendering

/-! # Trees that can be rendered

A tree can be rendered when its names can stand between quotes or are identifiers, its bodies are
those of well-formed code, and its constructors are no classes of plain suites and test cases. It
then has a rendering, which fixes the lines of the tree, and every rendering is read back.
-/

namespace JasmineConversion

open Text Source Pattern

/-- A text that can stand between quotes. -/
def Quotable (text : Text) : Prop :=
  ∃ quote, Mode.isQuote quote = true ∧ LiteralContent quote text

/-- A text without backslashes and double quotes can be quoted. -/
theorem quotable_of_plain {text : Text} (plain : ∀ c ∈ text, c ≠ '\\' ∧ c ≠ '"') : Quotable text := by
  refine ⟨'"', by decide, ?_⟩
  induction text with
  | nil => exact .nil
  | cons c rest ih =>
    obtain ⟨here, others⟩ := List.forall_mem_cons.mp plain
    exact .plain here.1 here.2 (ih others)

/-- A body that some well-formed code has. -/
def Code.Renderable (code : Code) : Prop :=
  ∃ raw, WellFormed raw ∧ dedent raw = code.body

/-- A test with a name that is an identifier or can be quoted. -/
structure Test.Renderable (test : Test) : Prop where
  name : Identifier test.name ∨ Quotable test.name ∧ test.name ≠ []
  code : test.code.Renderable

/-- A helper method with a name that is no key of anything else. -/
structure Helper.Renderable (helper : Helper) : Prop where
  identifier : Identifier helper.name
  noTest : startsWith "test".toList helper.name = false
  noKey : helper.name ∉ ["setUp".toList, "tearDown".toList, "ttype".toList, "_should".toList]
  parameters : ParameterList helper.parameters
  code : helper.code.Renderable

/-- Directives about different tests, with names and messages that can be quoted. -/
structure Should.Renderable (should : Should) : Prop where
  ignoredNodup : should.ignored.Nodup
  errorsNodup : (should.errors.map Prod.fst).Nodup
  ignored : ∀ name ∈ should.ignored, Quotable name
  errors : ∀ error ∈ should.errors, Quotable error.1 ∧ Quotable error.2

/-- A test case with parts that can be rendered. -/
structure TestCase.Renderable (testCase : TestCase) : Prop where
  name : Quotable testCase.name
  constructorName : ∀ name ∈ testCase.constructorName, name.head?.any isIdentifierStart = true ∧
    (∀ c ∈ name, isDotted c = true) ∧ name ∉ SuiteReader.suiteClasses ∧ name ∉ SuiteReader.caseClasses
  should : ∀ should ∈ testCase.should, should.Renderable
  setUp : ∀ code ∈ testCase.setUp, code.Renderable
  tearDown : ∀ code ∈ testCase.tearDown, code.Renderable
  tests : ∀ test ∈ testCase.tests, test.Renderable
  helpers : ∀ helper ∈ testCase.helpers, helper.Renderable

/-- A container with parts that can be rendered. -/
inductive Container.Renderable : Container → Prop
  | suite {name : Text} {children : List Container} (quotable : Quotable name)
      (each : ∀ child ∈ children, child.Renderable) : Renderable (.suite name children)
  | testCase {inner : TestCase} (parts : inner.Renderable) : Renderable (.testCase inner)

/-- A test case that can be rendered as a container can be by itself. -/
theorem Container.Renderable.ofTestCase {inner : TestCase} (renderable : (Container.testCase inner).Renderable) :
    inner.Renderable := by
  cases renderable
  assumption

/-- A suite that can be rendered has a quotable name and children that can be rendered. -/
theorem Container.Renderable.ofSuite {name : Text} {children : List Container}
    (renderable : (Container.suite name children).Renderable) :
    Quotable name ∧ ∀ child ∈ children, child.Renderable := by
  cases renderable
  constructor <;> assumption

/-- An outer container: a suite, or a test case that is not constructed. -/
def Container.IsOuter : Container → Prop
  | .suite _ _ => True
  | .testCase inner => inner.constructorName = none

/-- Trees that differ in their lines only. -/
def Container.SameButLines (first second : Container) : Prop :=
  first.mapLines (fun _ => 0) = second.mapLines fun _ => 0

/-! ## Functions and directives -/

theorem key_colon (name : Text) : Key name (name ++ [':']) :=
  ⟨[], [], rfl, rfl, by simp⟩

theorem gap_nil_separator : Separator [','] :=
  .comma .nil .nil

/-- A list of parameters holds no closing parenthesis. -/
theorem ParameterList.no_close {text : Text} (written : ParameterList text) : ')' ∉ text := by
  have ofBlank : ∀ {blank : Text}, isBlankText blank = true → ')' ∉ blank := by
    intro blank isBlank member
    exact absurd (isBlankText_iff.mp isBlank _ member) (by decide)
  have ofName : ∀ {name : Text}, Identifier name → ')' ∉ name := by
    intro name identifier member
    exact absurd (identifier.2 _ member) (by decide)
  induction written with
  | none isBlank => exact ofBlank isBlank
  | one beforeBlank identifier behindBlank =>
    simp [ofBlank beforeBlank, ofName identifier, ofBlank behindBlank]
  | more beforeBlank identifier behindBlank _ _ ih =>
    simp [ofBlank beforeBlank, ofName identifier, ofBlank behindBlank, ih]

/-- A function that can be rendered is written on any line. -/
theorem exists_functionText (line : Nat) {parameters : Text} (written : ParameterList parameters)
    {code : Code} (renderable : code.Renderable) :
    ∃ text found, FunctionText .rendered line text parameters found ∧ found.body = code.body := by
  obtain ⟨raw, wellFormed, same⟩ := renderable
  have head : FunctionHead parameters ("function(".toList ++ parameters ++ [')']) :=
    ⟨[], [], rfl, rfl, written.no_close, by simp⟩
  exact ⟨_, _, .intro head written wellFormed, same⟩

/-- Entries with keys and values that can be written can be written together. -/
theorem exists_entriesText {value : Text → Literal → Prop} {entries : List (Text × Literal)}
    (nodup : (entries.map Prod.fst).Nodup)
    (each : ∀ entry ∈ entries, (∃ key, EntryKey entry.1 key) ∧ ∃ text, value text entry.2) :
    ∃ text, EntriesText Gap value text entries := by
  have one : ∀ entry ∈ entries, ∃ text, EntryText Gap value text entry := by
    intro entry member
    obtain ⟨⟨key, isKey⟩, text, written⟩ := each entry member
    exact ⟨_, .intro .nil isKey .nil .nil written .nil⟩
  induction entries with
  | nil => exact ⟨[], .nil .nil⟩
  | cons entry more ih =>
    rw [List.map_cons, List.nodup_cons] at nodup
    obtain ⟨text, written⟩ := one entry List.mem_cons_self
    obtain ⟨rest, others⟩ := ih nodup.2 (fun other member => each other (List.mem_cons_of_mem _ member))
      fun other member => one other (List.mem_cons_of_mem _ member)
    exact ⟨_, .cons written nodup.1 others⟩

theorem Quotable.exists_entryKey {text : Text} (quotable : Quotable text) : ∃ key, EntryKey text key := by
  obtain ⟨quote, isQuote, content⟩ := quotable
  exact ⟨_, .quoted isQuote content⟩

/-- Directives that can be rendered are written. -/
theorem Should.Renderable.exists_directivesText {should : Should} (renderable : should.Renderable) :
    ∃ raw, DirectivesText raw should := by
  obtain ⟨ignored, ignoredText⟩ : ∃ text, BlockText text should.ignoreBlock.2 := by
    obtain ⟨text, written⟩ := @exists_entriesText LeafText
      (should.ignored.map fun test => (test, .boolean true))
      (by simpa [Function.comp_def] using renderable.ignoredNodup) <| by
        intro entry member
        obtain ⟨name, isName, rfl⟩ := List.mem_map.mp member
        exact ⟨(renderable.ignored name isName).exists_entryKey, _, .yes⟩
    exact ⟨_, .intro written⟩
  obtain ⟨errors, errorsText⟩ : ∃ text, BlockText text should.errorBlock.2 := by
    obtain ⟨text, written⟩ := @exists_entriesText LeafText
      (should.errors.map fun error => (error.1, .string error.2))
      (by simpa [Function.comp_def] using renderable.errorsNodup) <| by
        intro entry member
        obtain ⟨error, isError, rfl⟩ := List.mem_map.mp member
        obtain ⟨name, quote, isQuote, content⟩ := renderable.errors error isError
        exact ⟨name.exists_entryKey, _, .string isQuote content⟩
    exact ⟨_, .intro written⟩
  have ignoreKey : EntryKey "ignore".toList "ignore".toList := .bare ⟨by decide, by decide⟩
  have errorKey : EntryKey "error".toList "error".toList := .bare ⟨by decide, by decide⟩
  obtain ⟨raw, written⟩ := @exists_entriesText BlockText [should.ignoreBlock, should.errorBlock]
    (show (["ignore".toList, "error".toList] : List Text).Nodup by decide) <| by
      intro entry member
      simp only [List.mem_cons, List.not_mem_nil, or_false] at member
      rcases member with rfl | rfl
      · exact ⟨⟨_, ignoreKey⟩, _, ignoredText⟩
      · exact ⟨⟨_, errorKey⟩, _, errorsText⟩
  exact ⟨raw, _, .ignoreFirst, written⟩

/-! ## Members -/

/-- A member that can be rendered. -/
inductive Member.Renderable : Member → Prop
  | setUp {code : Code} (renderable : code.Renderable) : Renderable (.setUp code)
  | tearDown {code : Code} (renderable : code.Renderable) : Renderable (.tearDown code)
  | should {directives : Should} (renderable : directives.Renderable) : Renderable (.should directives)
  | test {test : Test} (renderable : test.Renderable) : Renderable (.test test)
  | helper {helper : Helper} (renderable : helper.Renderable) : Renderable (.helper helper)

/-- Members that differ in their lines only. -/
def SameMembers (first second : List Member) : Prop :=
  first.map (Member.mapLine fun _ => 0) = second.map (Member.mapLine fun _ => 0)

/-- The mark of a test starts with the word `test`. -/
theorem Pattern.TestMark.startsWith {name mark : Text} (isMark : TestMark name mark) :
    startsWith "test".toList mark = true := by
  cases isMark with
  | underscore _ => exact startsWith_iff.mpr ⟨_, rfl⟩
  | plain _ _ => exact startsWith_iff.mpr ⟨_, rfl⟩

/-- The name of a helper method that can be rendered is free. -/
theorem Helper.Renderable.free {helper : Helper} (renderable : helper.Renderable) : FreeName helper.name := by
  have noKey := renderable.noKey
  simp only [List.mem_cons, List.not_mem_nil, or_false, not_or] at noKey
  refine ⟨noKey.1, noKey.2.1, ?_⟩
  intro test isMark
  have noTest := renderable.noTest
  rw [isMark.startsWith] at noTest
  cases noTest

/-- A member that can be rendered is written on any line. -/
theorem Member.Renderable.exists_memberText {member : Member} (renderable : member.Renderable) (line : Nat) :
    ∃ text found, MemberText .rendered line text found ∧
      found.mapLine (fun _ => 0) = member.mapLine fun _ => 0 := by
  have noParameters : ParameterList [] := .none rfl
  cases renderable with
  | setUp renderable =>
    obtain ⟨text, found, written, same⟩ := exists_functionText (line + ("setUp:".toList).count '\n')
      noParameters renderable
    refine ⟨_, _, .setUp (key_colon _) rfl written, ?_⟩
    simp only [mapLine, Code.mapLine, same]
  | tearDown renderable =>
    obtain ⟨text, found, written, same⟩ := exists_functionText (line + ("tearDown:".toList).count '\n')
      noParameters renderable
    refine ⟨_, _, .tearDown (key_colon _) rfl written, ?_⟩
    simp only [mapLine, Code.mapLine, same]
  | should renderable =>
    obtain ⟨raw, written⟩ := renderable.exists_directivesText
    exact ⟨_, _, .should (key_colon _) written, rfl⟩
  | @test test renderable =>
    obtain ⟨name, code⟩ := test
    rcases renderable.name with identifier | ⟨⟨quote, isQuote, content⟩, nonempty⟩
    · obtain ⟨text, found, written, same⟩ := exists_functionText _ noParameters renderable.code
      refine ⟨_, _, .test (.underscore identifier) (key_colon _) rfl written, ?_⟩
      simp only [mapLine, Test.mapLine, Code.mapLine, same]
    · obtain ⟨text, found, written, same⟩ := exists_functionText _ noParameters renderable.code
      refine ⟨_, _, .quotedTest isQuote content nonempty (key_colon _) rfl written, ?_⟩
      simp only [mapLine, Test.mapLine, Code.mapLine, same]
  | @helper helper renderable =>
    obtain ⟨text, found, written, same⟩ := exists_functionText _ renderable.parameters renderable.code
    refine ⟨_, _, .helper renderable.identifier (fun _ => renderable.free) (key_colon _) written, ?_⟩
    simp only [mapLine, Helper.mapLine, Code.mapLine, same]

/-- Members that can be rendered are written on any line. -/
theorem exists_membersText {members : List Member} (renderable : ∀ member ∈ members, member.Renderable)
    (line : Nat) :
    ∃ text found, MembersText .rendered line text found ∧ SameMembers found members := by
  induction members generalizing line with
  | nil => exact ⟨_, _, .nil line, rfl⟩
  | cons member more ih =>
    obtain ⟨text, found, written, same⟩ := (renderable member List.mem_cons_self).exists_memberText line
    obtain ⟨rest, others, ofRest, sameRest⟩ := ih
      (fun other isOther => renderable other (List.mem_cons_of_mem _ isOther))
      (line + (text ++ [',']).count '\n')
    refine ⟨_, _, .cons written gap_nil_separator ofRest, ?_⟩
    unfold SameMembers at sameRest ⊢
    rw [List.map_cons, List.map_cons, same, sameRest]

/-- The members of a test case. -/
def TestCase.members (testCase : TestCase) : List Member :=
  testCase.setUp.toList.map .setUp ++ testCase.tearDown.toList.map .tearDown ++
    testCase.should.toList.map .should ++ testCase.tests.map .test ++ testCase.helpers.map .helper

/-- A test case comprises its members. -/
theorem TestCase.comprises_members (testCase : TestCase) : testCase.Comprises testCase.members := by
  have none : ∀ {α β : Type} (values : List α), values.filterMap (fun _ => (.none : Option β)) = [] :=
    fun values => List.filterMap_eq_nil_iff.mpr fun _ _ => rfl
  constructor <;> unfold members <;>
    simp [none, Function.comp_def, Member.setUp?, Member.tearDown?, Member.should?, Member.test?, Member.helper?]

/-- A list that is at most one value after a change was so before. -/
theorem head?_of_map_eq {α β : Type} {values : List α} {change : α → β} {only : Option β}
    (same : values.map change = only.toList) :
    values.head?.toList = values ∧ values.head?.map change = only := by
  cases only with
  | none =>
    obtain rfl := List.map_eq_nil_iff.mp same
    exact ⟨rfl, rfl⟩
  | some value =>
    obtain ⟨first, rest, rfl, here, empty⟩ := List.map_eq_cons_iff.mp same
    obtain rfl := List.map_eq_nil_iff.mp empty
    exact ⟨rfl, congrArg some here⟩

/-- Members that differ in their lines only make test cases that do. -/
theorem TestCase.exists_comprises {testCase : TestCase} {found : List Member}
    (same : SameMembers found testCase.members) :
    ∃ inner : TestCase, inner.Comprises found ∧ inner.name = testCase.name ∧
      inner.constructorName = testCase.constructorName ∧
      inner.mapLines (fun _ => 0) = testCase.mapLines fun _ => 0 := by
  have blanked : (testCase.mapLines fun _ => 0).Comprises (testCase.members.map (Member.mapLine fun _ => 0)) :=
    testCase.comprises_members.mapLines
  obtain ⟨setUp, tearDown, should, tests, helpers⟩ := blanked
  unfold SameMembers at same
  rw [← same] at setUp tearDown should tests helpers
  rw [filterMap_mapLine (Code.mapLine fun _ => 0) (by intro member; cases member <;> rfl)] at setUp tearDown
  rw [filterMap_mapLine id (by intro member; cases member <;> rfl)] at should
  rw [filterMap_mapLine (Test.mapLine fun _ => 0) (by intro member; cases member <;> rfl)] at tests
  rw [filterMap_mapLine (Helper.mapLine fun _ => 0) (by intro member; cases member <;> rfl)] at helpers
  obtain ⟨setUpHead, setUpSame⟩ := head?_of_map_eq setUp.symm
  obtain ⟨tearDownHead, tearDownSame⟩ := head?_of_map_eq tearDown.symm
  obtain ⟨shouldHead, shouldSame⟩ := head?_of_map_eq should.symm
  refine ⟨⟨testCase.name, testCase.constructorName, (found.filterMap Member.should?).head?,
    (found.filterMap Member.setUp?).head?, (found.filterMap Member.tearDown?).head?,
    found.filterMap Member.test?, found.filterMap Member.helper?⟩,
    ⟨setUpHead, tearDownHead, shouldHead, rfl, rfl⟩, rfl, rfl, ?_⟩
  have directives : (found.filterMap Member.should?).head? = testCase.should := by
    simpa [mapLines] using shouldSame
  simp only [mapLines, setUpSame, tearDownSame, directives, ← tests, ← helpers]

/-- The members of a test case that can be rendered can be too. -/
theorem TestCase.Renderable.members {testCase : TestCase} (renderable : testCase.Renderable) :
    ∀ member ∈ testCase.members, member.Renderable := by
  intro member isMember
  simp only [TestCase.members, List.mem_append, List.mem_map, Option.mem_toList] at isMember
  rcases isMember with (((⟨code, here, rfl⟩ | ⟨code, here, rfl⟩) | ⟨should, here, rfl⟩) | ⟨test, here, rfl⟩) |
    ⟨helper, here, rfl⟩
  · exact .setUp (renderable.setUp code here)
  · exact .tearDown (renderable.tearDown code here)
  · exact .should (renderable.should should here)
  · exact .test (renderable.tests test here)
  · exact .helper (renderable.helpers helper here)

/-- No member of a test case that can be rendered looks like the mark of a suite. -/
theorem unmarked_of_sameMembers {found members : List Member} (same : SameMembers found members)
    (renderable : ∀ member ∈ members, member.Renderable) : ¬ found.head?.any Member.marks = true := by
  have marks : ∀ member : Member, (member.mapLine fun _ => 0).marks = member.marks := by
    intro member
    cases member <;> rfl
  have heads : found.head?.any Member.marks = members.head?.any Member.marks := by
    have mapped := congrArg (fun members : List Member => members.head?.any Member.marks) same
    simpa [Option.any_map, Function.comp_def, marks] using mapped
  rw [heads]
  intro marked
  cases members with
  | nil => cases marked
  | cons member more =>
    cases renderable member List.mem_cons_self with
    | @helper helper ofHelper =>
      have isTtype : helper.name = "ttype".toList := by simpa [Member.marks] using marked
      exact ofHelper.noKey (by simp [isTtype])
    | _ => cases marked

/-! ## Containers -/

theorem Quotable.exists_headerText {name : Text} (quotable : Quotable name) : ∃ header, HeaderText name header := by
  obtain ⟨quote, isQuote, content⟩ := quotable
  exact ⟨_, .intro .nil (key_colon _) isQuote content gap_nil_separator⟩

/-- A test case that can be rendered has a rendering in its braces. -/
theorem TestCase.Renderable.exists_caseText {testCase : TestCase} (renderable : testCase.Renderable) (line : Nat) :
    ∃ (text : Text) (members : List Member) (inner : TestCase),
      CaseText .rendered line testCase.name false text members ∧
      inner.Comprises members ∧ inner.name = testCase.name ∧
      inner.constructorName = testCase.constructorName ∧
      inner.mapLines (fun _ => 0) = testCase.mapLines fun _ => 0 := by
  obtain ⟨header, named⟩ := renderable.name.exists_headerText
  obtain ⟨text, members, written, same⟩ :=
    exists_membersText renderable.members (line + (header ++ []).count '\n')
  obtain ⟨inner, comprises, isName, constructed, lines⟩ := testCase.exists_comprises same
  exact ⟨_, members, inner,
    .intro named .none written (fun _ => unmarked_of_sameMembers same renderable.members) trivial,
    comprises, isName, constructed, lines⟩

/-- The call of a constructor around a test case. -/
theorem TestCase.Renderable.exists_opening {testCase : TestCase} (renderable : testCase.Renderable) :
    ∃ before behind, Opening testCase.constructorName before ∧ Closing testCase.constructorName behind := by
  have named := renderable.constructorName
  cases constructed : testCase.constructorName with
  | none => exact ⟨_, _, .none, .none⟩
  | some name =>
    obtain ⟨starts, dotted, -, -⟩ := named name constructed
    exact ⟨_, _, .some ⟨[' '], [], [], by decide, by decide, rfl, rfl, starts, dotted, rfl⟩, .some .nil⟩

/-- A suite around the rendering of its items. -/
theorem exists_suiteFrame {name : Text} (quotable : Quotable name) (marked : Bool) :
    ∃ front back, ∀ items, SuiteFrame .rendered name marked items front back := by
  obtain ⟨header, named⟩ := quotable.exists_headerText
  have suite : LiteralContent '"' "suite".toList := by
    refine .plain ?_ ?_ (.plain ?_ ?_ (.plain ?_ ?_ (.plain ?_ ?_ (.plain ?_ ?_ .nil)))) <;> decide
  cases marked with
  | false =>
    exact ⟨_, _, fun items => .intro named (key_colon _) .nil gap_nil_separator .none trivial trivial⟩
  | true =>
    exact ⟨_, _, fun items => .intro named (key_colon _) .nil gap_nil_separator
      (.some (.quoted (key_colon _) (by decide) suite gap_nil_separator)) trivial trivial⟩

/-- Items that can be rendered are written on any line. -/
theorem exists_itemsText (trees : List Container) (renderable : ∀ tree ∈ trees, tree.Renderable) (line : Nat) :
    ∃ (text : Text) (found : List Container), ItemsText .rendered line text found ∧
      Container.mapLines.all (fun _ => 0) found = Container.mapLines.all (fun _ => 0) trees := by
  match trees with
  | [] => exact ⟨_, _, .nil line, rfl⟩
  | .testCase inner :: more =>
    have others := fun tree member => renderable tree (List.mem_cons_of_mem _ member)
    have parts := (renderable _ List.mem_cons_self).ofTestCase
    obtain ⟨before, behind, opening, closing⟩ := parts.exists_opening
    obtain ⟨text, members, found, written, comprises, named, constructed, same⟩ :=
      parts.exists_caseText (line + before.count '\n')
    obtain ⟨rest, foundMore, ofRest, sameRest⟩ := exists_itemsText more others
      (line + (before ++ text ++ behind ++ [',']).count '\n')
    have noSuite : ¬ inner.constructorName.any SuiteReader.suiteClasses.contains = true := by
      intro isSuite
      obtain ⟨name, here, listed⟩ := (Option.any_eq_true _ _).mp isSuite
      exact (parts.constructorName name here).2.2.1 (List.contains_iff_mem.mp listed)
    have kept : found.constructorName =
        inner.constructorName.filter fun name => !SuiteReader.caseClasses.contains name := by
      rw [constructed]
      cases here : inner.constructorName with
      | none => rfl
      | some name =>
        have unlisted := (parts.constructorName name here).2.2.2
        simp [Option.filter, unlisted]
    refine ⟨_, _, .testCase opening closing noSuite written comprises named kept gap_nil_separator ofRest, ?_⟩
    simp only [Container.mapLines.all, Container.mapLines, same, sameRest]
  | .suite name children :: more =>
    have others := fun tree member => renderable tree (List.mem_cons_of_mem _ member)
    obtain ⟨quotable, each⟩ := (renderable _ List.mem_cons_self).ofSuite
    obtain ⟨front, back, frame⟩ := exists_suiteFrame quotable true
    obtain ⟨items, foundChildren, written, sameChildren⟩ := exists_itemsText children each
      (line + ([] ++ front).count '\n')
    obtain ⟨rest, foundMore, ofRest, sameRest⟩ := exists_itemsText more others
      (line + ([] ++ front ++ items ++ back ++ [] ++ [',']).count '\n')
    refine ⟨_, _, .suite .none .none (by simp) (frame items) written gap_nil_separator ofRest, ?_⟩
    simp only [Container.mapLines.all, Container.mapLines, sameChildren, sameRest]

/-- A container that can be rendered is written on any line. -/
theorem Container.Renderable.exists_containerText {tree : Container} (renderable : tree.Renderable)
    (outer : tree.IsOuter) (line : Nat) :
    ∃ (text : Text) (found : Container), ContainerText .rendered line false text found ∧
      found.SameButLines tree := by
  cases tree with
  | suite name children =>
    obtain ⟨quotable, each⟩ := renderable.ofSuite
    obtain ⟨front, back, frame⟩ := exists_suiteFrame quotable false
    obtain ⟨items, found, written, same⟩ := exists_itemsText children each (line + front.count '\n')
    refine ⟨_, _, .suite rfl (frame items) written, ?_⟩
    simp only [SameButLines, mapLines, same]
  | testCase inner =>
    obtain ⟨text, members, found, written, comprises, named, constructed, same⟩ :=
      renderable.ofTestCase.exists_caseText line
    refine ⟨_, _, .testCase written (fun _ => rfl) comprises named (constructed.trans outer), ?_⟩
    simp only [SameButLines, mapLines, same]

/-- A tree that can be rendered has a rendering in a package, at any indent and closed with a
semicolon. -/
theorem Container.Renderable.exists_outerText {tree : Container} (renderable : tree.Renderable)
    (outer : tree.IsOuter) {package indent : Text} (named : package ≠ [])
    (dotted : ∀ c ∈ package, isDotted c = true) (indents : ∀ c ∈ indent, isIndent c = true) (line : Nat)
    (post : Text) :
    ∃ (region : Text) (found : Container), OuterText .rendered line post region indent found ∧
      endsWith [';'] region = true ∧ found.SameButLines (tree.qualify package) := by
  have anchored : AnchorHead indent package none (indent ++ "tests.".toList ++ package ++ ".add(".toList) :=
    ⟨[], [], indents, dotted, named, rfl, .none, by simp⟩
  obtain ⟨text, found, written, same⟩ := renderable.exists_containerText outer
    (line + (indent ++ "tests.".toList ++ package ++ ".add(".toList).count '\n')
  refine ⟨_, _, .intro anchored written (.plain (isBlankText_nil)) (.semicolon isBlankText_nil), ?_, ?_⟩
  · exact endsWith_iff.mpr ⟨_, rfl⟩
  · unfold SameButLines at same ⊢
    rw [Container.mapLines_qualify, Container.mapLines_qualify, same]

/-- Reading undoes rendering: a tree that can be rendered has renderings, and each of them is read
back from behind any text without an anchor and in front of any text, at its place and with its
indent. -/
theorem reading_undoes_rendering {tree : Container} (renderable : tree.Renderable) (outer : tree.IsOuter)
    {package indent : Text} (named : package ≠ []) (dotted : ∀ c ∈ package, isDotted c = true)
    (indents : ∀ c ∈ indent, isIndent c = true) {pre : Text} (absent : findAnchor pre = none)
    (fresh : pre = [] ∨ endsWith ['\n'] pre = true) (post : Text) :
    (∃ (region : Text) (found : Container),
      OuterText .rendered (1 + pre.count '\n') post region indent found ∧
        endsWith [';'] region = true ∧ found.SameButLines (tree.qualify package)) ∧
      ∀ (region : Text) (found : Container),
        OuterText .rendered (1 + pre.count '\n') post region indent found →
          OuterContainer.read (pre ++ region ++ post) =
            .ok ⟨found, pre.length, pre.length + region.length, indentLevel indent⟩ :=
  ⟨renderable.exists_outerText outer named dotted indents _ post,
    fun _ _ rendered => read_of_rendered absent fresh rendered⟩

/-- A suite with a directly constructed test case, whose only test is named by a phrase. -/
def constructedSuite : Container :=
  .suite "all".toList [.testCase
    { name := "b".toList
      constructorName := some "my.Case".toList
      tests := [⟨"goes on".toList, ⟨"go()".toList, 1⟩⟩] }]

/-- The suite can be rendered. -/
theorem constructedSuite_renderable : constructedSuite.Renderable := by
  have code : WellFormed "go()".toList := by
    refine ⟨"go()".toList, .single rfl (.single rfl (.single rfl (.single rfl .nil))), ?_⟩
    intro bracket
    cases bracket with
    | round => exact .other (by decide) (by decide) (.other (by decide) (by decide) (.nested .nil .nil))
    | _ => repeat (first | exact .nil | refine .other (by decide) (by decide) ?_)
  refine .suite (quotable_of_plain (by decide)) ?_
  intro child member
  obtain rfl := List.mem_singleton.mp member
  refine .testCase ⟨quotable_of_plain (by decide), by simp; decide, by simp, by simp, by simp, ?_, by simp⟩
  intro test isTest
  obtain rfl := List.mem_singleton.mp isTest
  exact ⟨.inr ⟨quotable_of_plain (by decide), by decide⟩, _, code, by decide⟩

/-- The suite is read back between a comment and other code. -/
theorem reading_undoes_rendering_of_constructedSuite :
    constructedSuite.Renderable ∧ constructedSuite.IsOuter ∧ findAnchor "// b\n".toList = none ∧
      ∃ (region : Text) (found : Container), found.SameButLines (constructedSuite.qualify ['a']) ∧
        OuterContainer.read ("// b\n".toList ++ region ++ "\nrun();".toList) =
          .ok ⟨found, 5, 5 + region.length, 0⟩ := by
  have absent : findAnchor "// b\n".toList = none := by decide
  have noIndent : ∀ c ∈ ([] : Text), isIndent c = true := by simp
  obtain ⟨⟨region, found, written, -, same⟩, reads⟩ := reading_undoes_rendering constructedSuite_renderable
    trivial (show ['a'] ≠ [] by decide) (by decide) noIndent absent (.inr (by decide)) "\nrun();".toList
  exact ⟨constructedSuite_renderable, trivial, absent, region, found, same, reads region found written⟩

end JasmineConversion
