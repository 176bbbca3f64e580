import JasmineConversion.Proofs.Suite.OuterReading

/-! # Trees on other lines

The lines of a tree are those of its text. The same text on another line is the text of the same
tree, with all its lines moved alike.
-/

namespace JasmineConversion

open Text Source Pattern

section

variable (change : Int → Int)

/-- Code on another line. -/
def Code.mapLine (code : Code) : Code :=
  { code with line := change code.line }

/-- A test on another line. -/
def Test.mapLine (test : Test) : Test :=
  { test with code := test.code.mapLine change }

/-- A helper method on another line. -/
def Helper.mapLine (helper : Helper) : Helper :=
  { helper with code := helper.code.mapLine change }

/-- A test case on other lines. -/
def TestCase.mapLines (testCase : TestCase) : TestCase :=
  { testCase with
    setUp := testCase.setUp.map (Code.mapLine change)
    tearDown := testCase.tearDown.map (Code.mapLine change)
    tests := testCase.tests.map (Test.mapLine change)
    helpers := testCase.helpers.map (Helper.mapLine change) }

/-- A container on other lines. -/
def Container.mapLines : Container → Container
  | .suite name children => .suite name (all children)
  | .testCase inner => .testCase (inner.mapLines change)
where
  /-- Containers on other lines. -/
  all : List Container → List Container
    | [] => []
    | child :: children => mapLines child :: all children

/-- A member on another line. -/
def Member.mapLine : Member → Member
  | .setUp code => .setUp (code.mapLine change)
  | .tearDown code => .tearDown (code.mapLine change)
  | .should directives => .should directives
  | .test found => .test (found.mapLine change)
  | .placeholder => .placeholder
  | .helper found => .helper (found.mapLine change)

end

variable {change : Int → Int}

/-- The members of one kind on other lines. -/
theorem filterMap_mapLine {α : Type} {pick : Member → Option α} (move : α → α)
    (commutes : ∀ member, pick (Member.mapLine change member) = (pick member).map move)
    (members : List Member) :
    (members.map (Member.mapLine change)).filterMap pick = (members.filterMap pick).map move := by
  rw [List.filterMap_map, List.map_filterMap]
  exact congrArg (List.filterMap · members) (funext commutes)

/-- A test case on other lines comprises its members on other lines. -/
theorem TestCase.Comprises.mapLines {testCase : TestCase} {members : List Member}
    (comprises : testCase.Comprises members) :
    (testCase.mapLines change).Comprises (members.map (Member.mapLine change)) := by
  obtain ⟨setUp, tearDown, should, tests, helpers⟩ := comprises
  constructor
  · rw [filterMap_mapLine (Code.mapLine change) (by intro member; cases member <;> rfl), ← setUp]
    exact Option.toList_map
  · rw [filterMap_mapLine (Code.mapLine change) (by intro member; cases member <;> rfl), ← tearDown]
    exact Option.toList_map
  · rw [filterMap_mapLine id (by intro member; cases member <;> rfl), ← should, List.map_id]
    rfl
  · rw [filterMap_mapLine (Test.mapLine change) (by intro member; cases member <;> rfl), ← tests]
    rfl
  · rw [filterMap_mapLine (Helper.mapLine change) (by intro member; cases member <;> rfl), ← helpers]
    rfl

/-- Lines of a test case are changed one after the other. -/
theorem TestCase.mapLines_mapLines (change change' : Int → Int) (testCase : TestCase) :
    (testCase.mapLines change).mapLines change' = testCase.mapLines (change' ∘ change) := by
  simp only [TestCase.mapLines, Option.map_map, List.map_map]
  rfl

mutual

/-- Lines of a container are changed one after the other. -/
theorem Container.mapLines_mapLines (change change' : Int → Int) (tree : Container) :
    (tree.mapLines change).mapLines change' = tree.mapLines (change' ∘ change) := by
  cases tree with
  | suite name children =>
    simp only [mapLines, mapLinesAll_mapLinesAll change change' children]
  | testCase inner =>
    simp only [mapLines, TestCase.mapLines_mapLines]

/-- Lines of containers are changed one after the other. -/
theorem Container.mapLinesAll_mapLinesAll (change change' : Int → Int) (trees : List Container) :
    mapLines.all change' (mapLines.all change trees) = mapLines.all (change' ∘ change) trees := by
  cases trees with
  | nil => rfl
  | cons first rest =>
    simp only [mapLines.all, mapLines_mapLines change change' first,
      mapLinesAll_mapLinesAll change change' rest]

end

@[simp] theorem Container.mapLines_qualify (package : Text) (tree : Container) :
    (tree.qualify package).mapLines change = (tree.mapLines change).qualify package := by
  cases tree <;> rfl

/-! ## Texts on other lines -/

variable {dialect : Dialect} {line line' : Nat} {lines : Int} {text : Text}

/-- A body moves with the text that it stands in. -/
theorem bodyLine_move (same : (line' : Int) = line + lines) (raw : Text) :
    (bodyLine line' raw : Int) = bodyLine line raw + lines := by
  simp only [bodyLine, Int.natCast_add]
  omega

/-- A function can be written on other lines. -/
theorem FunctionText.move {parameters : Text} {code : Code}
    (written : FunctionText dialect line text parameters code) (same : (line' : Int) = line + lines) :
    FunctionText dialect line' text parameters (code.mapLine (· + lines)) := by
  obtain @⟨_, head, raw, function, allowed, body⟩ := written
  have moved : (Code.ofRaw raw (bodyLine (line + head.count '\n') raw)).mapLine (· + lines) =
      .ofRaw raw (bodyLine (line' + head.count '\n') raw) := by
    have later : ((line' + head.count '\n' : Nat) : Int) = (line + head.count '\n' : Nat) + lines := by
      omega
    rw [bodyLine_move later]
    rfl
  rw [moved]
  exact .intro function allowed body

theorem move_count (same : (line' : Int) = line + lines) (text : Text) :
    ((line' + text.count '\n' : Nat) : Int) = (line + text.count '\n' : Nat) + lines := by
  omega

/-- A member can be written on other lines. -/
theorem MemberText.move {member : Member} (written : MemberText dialect line text member)
    (same : (line' : Int) = line + lines) :
    MemberText dialect line' text (member.mapLine (· + lines)) := by
  cases written with
  | setUp isKey blank written => exact .setUp isKey blank (written.move (move_count same _))
  | tearDown isKey blank written => exact .tearDown isKey blank (written.move (move_count same _))
  | should isKey written => exact .should isKey written
  | test isMark isKey blank written => exact .test isMark isKey blank (written.move (move_count same _))
  | quotedTest isQuote content nonempty isKey blank written =>
    exact .quotedTest isQuote content nonempty isKey blank (written.move (move_count same _))
  | placeholder isQuote isKey written => exact .placeholder isQuote isKey (written.move (move_count same _))
  | helper identifier free isKey written =>
    exact .helper identifier free isKey (written.move (move_count same _))

/-- Members can be written on other lines. -/
theorem MembersText.move {members : List Member} (written : MembersText dialect line text members)
    (same : (line' : Int) = line + lines) :
    MembersText dialect line' text (members.map (Member.mapLine (· + lines))) := by
  induction written generalizing line' with
  | nil line => exact .nil line'
  | cons first apart _ ih => exact .cons (first.move same) apart (ih (move_count same _))

/-- A test case can be written on other lines. -/
theorem CaseText.move {name : Text} {marked : Bool} {members : List Member}
    (written : CaseText dialect line name marked text members) (same : (line' : Int) = line + lines) :
    CaseText dialect line' name marked text (members.map (Member.mapLine (· + lines))) := by
  obtain ⟨named, marking, written, unmarked, inside⟩ := written
  refine .intro named marking (written.move (move_count same _)) ?_ inside
  intro plain
  have marks : ∀ member : Member, (member.mapLine (· + lines)).marks = member.marks := by
    intro member
    cases member <;> rfl
  simpa [Option.any_map, Function.comp_def, marks] using unmarked plain

/-- Items can be written on other lines. -/
theorem ItemsText.move {found : List Container} (written : ItemsText dialect line text found)
    (same : (line' : Int) = line + lines) :
    ItemsText dialect line' text (Container.mapLines.all (· + lines) found) := by
  induction written generalizing line' with
  | nil line => exact .nil line'
  | testCase opening closing noSuite written comprises named constructed apart _ ih =>
    exact .testCase opening closing noSuite (written.move (move_count same _)) comprises.mapLines named
      constructed apart (ih (move_count same _))
  | suite opening closing ofSuite frame _ apart _ ihNested ih =>
    exact .suite opening closing ofSuite frame (ihNested (move_count same _)) apart
      (ih (move_count same _))
  | bareSuite opening closing ofSuite named marking inside apart _ ih =>
    exact .bareSuite opening closing ofSuite named marking inside apart (ih (move_count same _))

/-- A container can be written on other lines. -/
theorem ContainerText.move {declared : Bool} {tree : Container}
    (written : ContainerText dialect line declared text tree) (same : (line' : Int) = line + lines) :
    ContainerText dialect line' declared text (tree.mapLines (· + lines)) := by
  cases written with
  | testCase written unmarked comprises named unconstructed =>
    exact .testCase (written.move same) unmarked comprises.mapLines named unconstructed
  | suite undeclared frame written =>
    exact .suite undeclared frame (written.move (move_count same _))

/-- The outer container on another line has the same tree, moved by as many lines. -/
theorem OuterText.move {rest indent : Text} {tree : Container}
    (written : OuterText dialect line rest text indent tree) (same : (line' : Int) = line + lines) :
    OuterText dialect line' rest text indent (tree.mapLines (· + lines)) := by
  obtain ⟨anchored, written, closes, ends⟩ := written
  rw [Container.mapLines_qualify]
  exact .intro anchored (written.move (move_count same _)) closes ends

end JasmineConversion
