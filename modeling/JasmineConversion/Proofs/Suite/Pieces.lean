import JasmineConversion.Proofs.Suite.Orderly
import JasmineConversion.Proofs.Suite.OuterReading

/-! # Test cases and members as pieces of the source

What is written in a container starts on the line of the container or on one behind it. Every test case of the outer
container is a piece of its text, and so is every member of the test case, each with the line on which it starts.
-/

namespace JasmineConversion

open Text Source Pattern

/-- A piece of a text that starts on a line. What is said of the piece depends on the line on which it starts itself. -/
def PieceIn (written : (line : Nat) → (piece : Text) → Prop) (line : Nat) (text : Text) : Prop :=
  ∃ front piece back, text = front ++ piece ++ back ∧ written (line + front.count '\n') piece

variable {dialect : Dialect} {line : Nat} {text : Text}

namespace PieceIn

variable {written written' : Nat → Text → Prop}

/-- A piece of a text is one of any text around it. -/
theorem within (front back : Text) (inside : PieceIn written (line + front.count '\n') text) :
    PieceIn written line (front ++ text ++ back) := by
  obtain ⟨before, piece, behind, rfl, here⟩ := inside
  refine ⟨front ++ before, piece, behind ++ back, by simp, ?_⟩
  rwa [List.count_append, ← Nat.add_assoc]

/-- A part of a part is a part. -/
theorem bind (inside : PieceIn written line text)
    (parts : ∀ line piece, written line piece → PieceIn written' line piece) : PieceIn written' line text := by
  obtain ⟨front, piece, back, rfl, here⟩ := inside
  exact (parts _ _ here).within front back

end PieceIn

/-- A test case with its members is a piece of a text that starts on a line. -/
structure TestCase.StandsIn (dialect : Dialect) (line : Nat) (text : Text) (inner : TestCase) (members : List Member) :
    Prop where
  comprises : inner.Comprises members
  piece : ∃ name marked, PieceIn (CaseText dialect · name marked · members) line text

/-- Each member is written as a part of the text of the members. -/
theorem MembersText.pieceIn {members : List Member} (written : MembersText dialect line text members) {member : Member}
    (isMember : member ∈ members) : PieceIn (MemberText dialect · · member) line text := by
  induction written with
  | nil => cases isMember
  | @cons line text separator rest member more first apart others ih =>
    rcases List.mem_cons.mp isMember with rfl | isMember
    · exact ⟨[], text, separator ++ rest, by simp, first⟩
    · have inside := (ih isMember).within (text ++ separator) []
      rwa [List.append_nil] at inside

namespace TestCase.StandsIn

variable {inner : TestCase} {members : List Member}

/-- A test case that stands in a text stands in a longer one, further down. -/
theorem within (front back : Text) (stands : inner.StandsIn dialect (line + front.count '\n') text members) :
    inner.StandsIn dialect line (front ++ text ++ back) members := by
  obtain ⟨comprises, name, marked, inside⟩ := stands
  exact ⟨comprises, name, marked, inside.within front back⟩

theorem of_caseText {name : Text} {marked : Bool} (written : CaseText dialect line name marked text members)
    (comprises : inner.Comprises members) : inner.StandsIn dialect line text members :=
  ⟨comprises, name, marked, [], text, [], by simp, written⟩

/-- All members of a test case are pieces of the text around it. -/
theorem membersText (stands : inner.StandsIn dialect line text members) :
    PieceIn (MembersText dialect · · members) line text := by
  obtain ⟨-, name, marked, inside⟩ := stands
  refine inside.bind fun line piece written => ?_
  obtain @⟨header, mark, rest, _, named, marking, written, unmarked, -⟩ := written
  have same : (header ++ mark).count '\n' = ('{' :: header ++ mark).count '\n' := by simp
  rw [same] at written
  exact ⟨'{' :: header ++ mark, rest, ['}'], by simp, written⟩

theorem memberText (stands : inner.StandsIn dialect line text members) {member : Member}
    (isMember : member ∈ members) : PieceIn (MemberText dialect · · member) line text :=
  stands.membersText.bind fun _ _ written => written.pieceIn isMember

end TestCase.StandsIn

/-- Each test case of some items stands in their text. -/
theorem ItemsText.exists_standsIn {found : List Container} (written : ItemsText dialect line text found) :
    ∀ inner ∈ Container.cases.all found, ∃ members, inner.StandsIn dialect line text members := by
  induction written with
  | nil => exact fun inner none => (List.not_mem_nil none).elim
  | @testCase line before text behind separator rest name constructor members inner more opening closing noSuite
      written comprises named constructed apart others ih =>
    intro other here
    rcases List.mem_cons.mp here with rfl | here
    · have inside := (TestCase.StandsIn.of_caseText written comprises).within before (behind ++ separator ++ rest)
      exact ⟨members, by simpa using inside⟩
    · obtain ⟨members, stands⟩ := ih other here
      have inside := stands.within (before ++ text ++ behind ++ separator) []
      exact ⟨members, by simpa using inside⟩
  | @suite line before front items back behind separator rest name constructor children more opening closing ofSuite
      frame written apart others ihInside ih =>
    intro inner here
    rcases List.mem_append.mp here with here | here
    · obtain ⟨members, stands⟩ := ihInside inner here
      have inside := stands.within (before ++ front) (back ++ behind ++ separator ++ rest)
      exact ⟨members, by simpa using inside⟩
    · obtain ⟨members, stands⟩ := ih inner here
      have inside := stands.within (before ++ front ++ items ++ back ++ behind ++ separator) []
      exact ⟨members, by simpa using inside⟩
  | @bareSuite line before header mark behind separator rest name constructor more opening closing ofSuite named
      marking inside apart others ih =>
    intro inner here
    obtain ⟨members, stands⟩ := ih inner here
    have inside := stands.within (before ++ '{' :: header ++ mark ++ '}' :: behind ++ separator) []
    exact ⟨members, by simpa using inside⟩

/-- Each test case of a container stands in its text. -/
theorem ContainerText.exists_standsIn {declared : Bool} {tree : Container}
    (written : ContainerText dialect line declared text tree) :
    ∀ inner ∈ tree.cases, ∃ members, inner.StandsIn dialect line text members := by
  cases written with
  | testCase written unmarked comprises named unconstructed =>
    exact fun inner here => List.mem_singleton.mp here ▸ ⟨_, .of_caseText written comprises⟩
  | @suite name front items back marked children undeclared frame written =>
    intro inner here
    obtain ⟨members, stands⟩ := written.exists_standsIn inner here
    exact ⟨members, stands.within front back⟩

/-- Every test case of the outer container is a piece of its text. The package in the name of the container is not part
of its members. -/
theorem OuterText.exists_standsIn {rest indent : Text} {tree : Container}
    (written : OuterText dialect line rest text indent tree) :
    ∀ inner ∈ tree.cases, ∃ members, inner.StandsIn dialect line text members := by
  obtain @⟨_, package, head, text, close, ending, _, tree, anchored, written, closes, ends⟩ := written
  have each : ∀ inner ∈ tree.cases, ∃ members,
      inner.StandsIn dialect line (head ++ text ++ (close ++ ending)) members := by
    intro inner here
    obtain ⟨members, stands⟩ := written.exists_standsIn inner here
    exact ⟨members, stands.within head (close ++ ending)⟩
  rw [List.append_assoc (head ++ text)]
  cases tree with
  | suite name children => exact each
  | testCase found =>
    intro inner here
    rw [List.mem_singleton.mp here]
    obtain ⟨members, comprises, piece⟩ := each found List.mem_cons_self
    exact ⟨members,
      ⟨comprises.setUp, comprises.tearDown, comprises.should, comprises.tests, comprises.helpers⟩, piece⟩

/-- Every test case that was read is a piece of the source. -/
theorem OuterContainer.exists_standsIn_of_read {source : Text} {found : OuterContainer}
    (ran : OuterContainer.read source = .ok found) :
    ∀ inner ∈ found.tree.cases, ∃ members, inner.StandsIn .accepted 1 source members := by
  obtain ⟨anchor, region, -, spans, -, written⟩ := SuiteReader.exists_outerText_of_read ran
  intro inner here
  obtain ⟨members, stands⟩ := written.exists_standsIn inner here
  rw [lineAt, Nat.add_comm] at stands
  have whole : source = source.take found.start ++ region ++ source.drop found.stop := by
    rw [List.append_assoc, ← spans.here, List.take_append_drop]
  rw [whole]
  exact ⟨members, stands.within (source.take found.start) (source.drop found.stop)⟩

end JasmineConversion
