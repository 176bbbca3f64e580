import JasmineConversion.Proofs.Source.WellFormed
import JasmineConversion.Proofs.Suite.Directives
import JasmineConversion.Proofs.Suite.OuterReading

/-! # Reading what was rendered

A tree is rendered with any white space and comments between its members, any quotes, and with or
without commas. Its bodies are well-formed code. Whatever is rendered so is read back.
-/

namespace JasmineConversion

open Text Source Pattern JasmineConversion.Bracket

/-! ## What stands inside functions -/

/-- Identifiers with white space around them and commas between them, or white space alone. -/
inductive ParameterList : Text → Prop
  | none {blank : Text} (isBlank : isBlankText blank = true) : ParameterList blank
  | one {before name behind : Text} (beforeBlank : isBlankText before = true)
      (identifier : Identifier name) (behindBlank : isBlankText behind = true) :
      ParameterList (before ++ name ++ behind)
  | more {before name behind rest : Text} (beforeBlank : isBlankText before = true)
      (identifier : Identifier name) (behindBlank : isBlankText behind = true)
      (another : isBlankText rest = false) (others : ParameterList rest) :
      ParameterList (before ++ name ++ behind ++ ',' :: rest)

/-- The dialect that is rendered. -/
def Dialect.rendered : Dialect where
  body := WellFormed
  parameters := ParameterList
  directives := DirectivesText
  container _ := True
  list _ := True

variable {bracket : Bracket} {text : Text}

/-- A list of parameters leaves the nesting as it was. -/
theorem ParameterList.passes (written : ParameterList text) : bracket.Passes text := by
  have names : ∀ {name : Text}, Identifier name → bracket.Passes name := fun identifier =>
    passes_of_plain fun c member => plain_of_isIdentifierPart (identifier.2 c member)
  induction written with
  | none isBlank => exact passes_blank isBlank
  | one beforeBlank identifier behindBlank =>
    exact ((passes_blank beforeBlank).append (names identifier)).append (passes_blank behindBlank)
  | more beforeBlank identifier behindBlank _ _ ih =>
    have first := ((passes_blank beforeBlank).append (names identifier)).append (passes_blank behindBlank)
    exact first.append (.cons (by cases bracket <;> decide) ih)

theorem passes_of_identifier (identifier : Identifier text) : bracket.Passes text :=
  passes_of_plain fun c member => plain_of_isIdentifierPart (identifier.2 c member)

/-- A rendered function leaves the nesting as it was. -/
theorem FunctionText.passes {line : Nat} {parameters : Text} {code : Code}
    (written : FunctionText .rendered line text parameters code) : bracket.Passes text := by
  obtain ⟨function, allowed, body⟩ := written
  obtain ⟨before, behind, beforeBlank, behindBlank, -, rfl⟩ := function
  have word : bracket.Passes "function".toList := passes_of_plain (by cases bracket <;> decide)
  have parameters : bracket.Passes ('(' :: parameters ++ [')']) := Passes.enclosed allowed.passes round
  have inside : bracket.Passes _ := passes_of_encloses (body.encloses bracket)
  have head := ((word.append (passes_blank beforeBlank)).append parameters).append (passes_blank behindBlank)
  simpa using head.append (inside.braces)

/-- A rendered function is accepted. -/
theorem FunctionText.accepted {line : Nat} {parameters : Text} {code : Code}
    (written : FunctionText .rendered line text parameters code) :
    FunctionText .accepted line text parameters code := by
  obtain ⟨function, -, body⟩ := written
  exact .intro function trivial (body.encloses brace)

/-- A rendered member leaves the nesting as it was. -/
theorem MemberText.passes {line : Nat} {member : Member} (written : MemberText .rendered line text member) :
    bracket.Passes text := by
  cases written with
  | setUp isKey _ written => exact (isKey.passes_of_parts (by decide)).append written.passes
  | tearDown isKey _ written => exact (isKey.passes_of_parts (by decide)).append written.passes
  | should isKey written =>
    have key : bracket.Passes _ := isKey.passes_of_parts (by decide)
    have raw : bracket.Passes _ := DirectivesText.passes written
    simpa using key.append (raw.braces)
  | test isMark isKey _ written =>
    exact (isKey.passes (passes_of_identifier isMark.identifier)).append written.passes
  | quotedTest isQuote content _ isKey _ written =>
    exact (isKey.passes (passes_quoted isQuote content)).append written.passes
  | placeholder isQuote isKey written =>
    exact (isKey.passes (passes_quoted isQuote .nil)).append written.passes
  | helper identifier _ isKey written =>
    exact (isKey.passes (passes_of_identifier identifier)).append written.passes

/-- A rendered member is accepted. -/
theorem MemberText.accepted {line : Nat} {member : Member}
    (written : MemberText .rendered line text member) : MemberText .accepted line text member := by
  cases written with
  | setUp isKey blank written => exact .setUp isKey blank written.accepted
  | tearDown isKey blank written => exact .tearDown isKey blank written.accepted
  | should isKey written => exact .should isKey (DirectivesText.accepted written)
  | test isMark isKey blank written => exact .test isMark isKey blank written.accepted
  | quotedTest isQuote content nonempty isKey blank written =>
    exact .quotedTest isQuote content nonempty isKey blank written.accepted
  | placeholder isQuote isKey written => exact .placeholder isQuote isKey written.accepted
  | helper identifier free isKey written => exact .helper identifier free isKey written.accepted

/-- Rendered members are accepted and leave the nesting as it was. -/
theorem MembersText.accepted {line : Nat} {members : List Member}
    (written : MembersText .rendered line text members) :
    MembersText .accepted line text members ∧ ∀ bracket : Bracket, bracket.Passes text := by
  induction written with
  | nil line => exact ⟨.nil line, fun _ => passes_nil⟩
  | cons first apart _ ih =>
    exact ⟨.cons first.accepted apart ih.1,
      fun bracket => (first.passes.append apart.passes).append (ih.2 bracket)⟩

/-! ## Containers -/

/-- A rendered test case is accepted and leaves the nesting as it was. -/
theorem CaseText.accepted {line : Nat} {name : Text} {marked : Bool} {members : List Member}
    (written : CaseText .rendered line name marked text members) :
    CaseText .accepted line name marked text members ∧ ∀ bracket : Bracket, bracket.Passes text := by
  obtain ⟨named, marking, written, unmarked, -⟩ := written
  have inside : ∀ bracket : Bracket, bracket.Passes _ := fun bracket =>
    (named.passes.append marking.passes).append (written.accepted.2 bracket)
  refine ⟨.intro named marking written.accepted.1 unmarked (inside brace).encloses, ?_⟩
  intro bracket
  simpa using (inside bracket).braces

/-- The text of a suite around its items encloses them. -/
theorem SuiteFrame.accepted {name items front back : Text} {marked : Bool}
    (frame : SuiteFrame .rendered name marked items front back)
    (passes : ∀ bracket : Bracket, bracket ≠ .round → bracket.Passes items) :
    SuiteFrame .accepted name marked items front back ∧
      ∀ bracket : Bracket, bracket ≠ .round → bracket.Passes (front ++ items ++ back) := by
  obtain @⟨header, mark, key, gap, separator, named, isKey, isGap, apart, marking, -, -⟩ := frame
  have listed : ∀ bracket : Bracket, bracket ≠ .round → bracket.Passes (gap ++ items) :=
    fun bracket noRound => (passes_gap isGap).append (passes bracket noRound)
  have inside : ∀ bracket : Bracket, bracket ≠ .round → bracket.Passes
      (header ++ mark ++ key ++ '[' :: gap ++ items ++ ']' :: separator) := by
    intro bracket noRound
    have lead : bracket.Passes (header ++ mark ++ key) :=
      (named.passes.append marking.passes).append (isKey.passes_of_parts (by decide))
    simpa using (lead.append (listed bracket noRound).squares).append apart.passes
  refine ⟨.intro named isKey isGap apart marking (listed square (by decide)).encloses
    (inside brace (by decide)).encloses, ?_⟩
  intro bracket noRound
  simpa using (inside bracket noRound).braces

/-- Rendered items are accepted and leave the nesting of braces and square brackets as it was. -/
theorem ItemsText.accepted {line : Nat} {found : List Container}
    (written : ItemsText .rendered line text found) :
    ItemsText .accepted line text found ∧
      ∀ bracket : Bracket, bracket ≠ .round → bracket.Passes text := by
  induction written with
  | nil line => exact ⟨.nil line, fun _ _ => passes_nil⟩
  | testCase opening closing noSuite written comprises named constructed apart _ ih =>
    refine ⟨.testCase opening closing noSuite written.accepted.1 comprises named constructed apart ih.1, ?_⟩
    intro bracket noRound
    have item := ((opening.passes noRound).append (written.accepted.2 bracket)).append
      (closing.passes noRound)
    exact (item.append apart.passes).append (ih.2 bracket noRound)
  | suite opening closing ofSuite frame _ apart _ ihNested ih =>
    obtain ⟨isFrame, passes⟩ := frame.accepted ihNested.2
    refine ⟨.suite opening closing ofSuite isFrame ihNested.1 apart ih.1, ?_⟩
    intro bracket noRound
    have item := ((opening.passes noRound).append (passes bracket noRound)).append (closing.passes noRound)
    simpa using (item.append apart.passes).append (ih.2 bracket noRound)
  | bareSuite opening closing ofSuite named marking _ apart _ ih =>
    have inside : ∀ bracket : Bracket, bracket.Passes _ := fun _ => named.passes.append marking.passes
    refine ⟨.bareSuite opening closing ofSuite named marking (inside brace).encloses apart ih.1, ?_⟩
    intro bracket noRound
    have item := ((opening.passes noRound).append (inside bracket).braces).append (closing.passes noRound)
    simpa using (item.append apart.passes).append (ih.2 bracket noRound)

/-- A rendered container is accepted. -/
theorem ContainerText.accepted {line : Nat} {declared : Bool} {tree : Container}
    (written : ContainerText .rendered line declared text tree) :
    ContainerText .accepted line declared text tree := by
  cases written with
  | testCase written unmarked comprises named unconstructed =>
    exact .testCase written.accepted.1 unmarked comprises named unconstructed
  | suite undeclared frame written =>
    exact .suite undeclared (frame.accepted written.accepted.2).1 written.accepted.1

/-- A rendered outer container is accepted. -/
theorem OuterText.accepted {line : Nat} {rest indent : Text} {tree : Container}
    (written : OuterText .rendered line rest text indent tree) :
    OuterText .accepted line rest text indent tree := by
  obtain ⟨anchored, written, closes, ends⟩ := written
  exact .intro anchored written.accepted closes ends

/-- What was rendered is read back, behind any text without an anchor and in front of any text. -/
theorem read_of_rendered {pre region post indent : Text} {tree : Container}
    (absent : findAnchor pre = none) (fresh : pre = [] ∨ endsWith ['\n'] pre = true)
    (rendered : OuterText .rendered (1 + pre.count '\n') post region indent tree) :
    OuterContainer.read (pre ++ region ++ post) =
      .ok ⟨tree, pre.length, pre.length + region.length, indentLevel indent⟩ :=
  SuiteReader.read_of_outerText absent fresh rendered.accepted

end JasmineConversion
