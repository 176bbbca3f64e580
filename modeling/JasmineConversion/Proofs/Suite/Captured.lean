import JasmineConversion.Proofs.Suite.Pieces
import JasmineConversion.Proofs.Suite.Sweep

/-! # What is captured with a test case

Helper methods are captured with identifiers for their names, and code with the line of the text between its
braces.
-/

namespace JasmineConversion

open Text Source Pattern

/-- The code of a member that has some and is kept. -/
def Member.code? : Member → Option Code
  | setUp code => some code
  | tearDown code => some code
  | test found => some found.code
  | helper found => some found.code
  | _ => none

/-- Code that is captured between braces in a text, which starts on a line. -/
inductive CodeIn (line : Nat) (text : Text) : Code → Prop
  | intro {before raw behind : Text} (whole : text = before ++ '{' :: raw ++ '}' :: behind) :
      CodeIn line text (.ofRaw raw (bodyLine (line + before.count '\n') raw))

/-- A test case as it is captured from a text that starts on a line. -/
structure TestCase.Captured (line : Nat) (text : Text) (found : TestCase) : Prop where
  names : ∀ helper ∈ found.helpers, Identifier helper.name
  codes : ∀ placed ∈ found.placed, CodeIn line text placed.code

variable {dialect : Dialect} {line : Nat} {text : Text}

theorem CodeIn.line_le {code : Code} (codeIn : CodeIn line text code) : (line : Int) ≤ code.line := by
  obtain ⟨whole⟩ := codeIn
  simp only [Code.ofRaw, bodyLine]
  omega

/-- Code in a text is code in any text around it. -/
theorem CodeIn.within {code : Code} (front back : Text) (codeIn : CodeIn (line + front.count '\n') text code) :
    CodeIn line (front ++ text ++ back) code := by
  obtain @⟨before, raw, behind, rfl⟩ := codeIn
  have moved : line + front.count '\n' + before.count '\n' = line + (front ++ before).count '\n' := by
    rw [List.count_append, Nat.add_assoc]
  rw [moved]
  exact @CodeIn.intro line _ (front ++ before) raw (behind ++ back) (by simp)

theorem TestCase.Captured.within {found : TestCase} (front back : Text)
    (captured : found.Captured (line + front.count '\n') text) : found.Captured line (front ++ text ++ back) :=
  ⟨captured.names, fun placed member => (captured.codes placed member).within front back⟩

/-! ## Members -/

/-- The body of a function stands in its text. -/
theorem FunctionText.codeIn {parameters : Text} {code : Code}
    (written : FunctionText dialect line text parameters code) : CodeIn line text code := by
  obtain @⟨_, head, raw, function, allowed, body⟩ := written
  exact .intro rfl

/-- A member with code is a function behind a key. -/
theorem MemberText.exists_functionText {member : Member} (written : MemberText dialect line text member) {code : Code}
    (kept : member.code? = some code) : ∃ key function parameters, text = key ++ function ∧
      FunctionText dialect (line + key.count '\n') function parameters code := by
  cases written with
  | should isKey written => cases kept
  | placeholder isQuote isKey written => cases kept
  | setUp isKey blank written =>
    cases kept
    exact ⟨_, _, _, rfl, written⟩
  | tearDown isKey blank written =>
    cases kept
    exact ⟨_, _, _, rfl, written⟩
  | test isMark isKey blank written =>
    cases kept
    exact ⟨_, _, _, rfl, written⟩
  | quotedTest isQuote content nonempty isKey blank written =>
    cases kept
    exact ⟨_, _, _, rfl, written⟩
  | helper identifier free isKey written =>
    cases kept
    exact ⟨_, _, _, rfl, written⟩

/-- The body of a member stands in its text. -/
theorem MemberText.codeIn {member : Member} (written : MemberText dialect line text member)
    {code : Code} (kept : member.code? = some code) : CodeIn line text code := by
  obtain ⟨key, function, parameters, rfl, isFunction⟩ := written.exists_functionText kept
  have inside := isFunction.codeIn.within key []
  rwa [List.append_nil] at inside

/-- The bodies of members stand in their text. -/
theorem MembersText.codeIn {members : List Member} (written : MembersText dialect line text members)
    {member : Member} (isMember : member ∈ members) {code : Code} (kept : member.code? = some code) :
    CodeIn line text code := by
  obtain ⟨front, piece, back, rfl, here⟩ := written.pieceIn isMember
  exact (here.codeIn kept).within front back

namespace TestCase.Comprises

variable {found : TestCase} {members : List Member}

/-- All code of a test case is that of a member. -/
theorem exists_of_mem_placed (comprises : found.Comprises members) {placed : PlacedCode}
    (here : placed ∈ found.placed) : ∃ member ∈ members, member.code? = some placed.code := by
  have picked {α : Type} (pick : Member → Option α) (code : α → Code)
      (keeps : ∀ member value, pick member = some value → member.code? = some (code value)) {value : α}
      (inside : value ∈ members.filterMap pick) :
        ∃ member ∈ members, member.code? = some (code value) := by
    obtain ⟨member, isMember, isValue⟩ := List.mem_filterMap.mp inside
    exact ⟨member, isMember, keeps member value isValue⟩
  simp only [TestCase.placed, TestCase.placedHooks, TestCase.placedBodies, List.mem_append,
    List.mem_map] at here
  rcases here with (⟨code, inside, rfl⟩ | ⟨code, inside, rfl⟩) | ⟨helper, inside, rfl⟩ |
    ⟨test, inside, rfl⟩
  · rw [comprises.setUp] at inside
    exact picked Member.setUp? id (fun member _ isCode =>
      by cases member <;> cases isCode; rfl) inside
  · rw [comprises.tearDown] at inside
    exact picked Member.tearDown? id (fun member _ isCode =>
      by cases member <;> cases isCode; rfl) inside
  · rw [comprises.helpers] at inside
    exact picked Member.helper? Helper.code (fun member _ isHelper =>
      by cases member <;> cases isHelper; rfl) inside
  · rw [comprises.tests] at inside
    exact picked Member.test? Test.code (fun member _ isTest =>
      by cases member <;> cases isTest; rfl) inside

/-- A test case captures the bodies of its members. -/
theorem captured (comprises : found.Comprises members)
    (written : MembersText dialect line text members) :
    found.Captured line text := by
  refine ⟨?_, ?_⟩
  · intro helper inside
    rw [comprises.helpers] at inside
    obtain ⟨member, isMember, isHelper⟩ := List.mem_filterMap.mp inside
    obtain ⟨_, _, _, _, written⟩ := written.pieceIn isMember
    cases written with
    | helper identifier free isKey written =>
      cases isHelper
      exact identifier
    | _ => cases isHelper
  · intro placed here
    obtain ⟨member, isMember, kept⟩ := comprises.exists_of_mem_placed here
    exact written.codeIn isMember kept

end TestCase.Comprises

/-! ## Containers -/

/-- A test case that stands in a text captures its bodies there. -/
theorem TestCase.StandsIn.captured {inner : TestCase} {members : List Member}
    (stands : inner.StandsIn dialect line text members) : inner.Captured line text := by
  obtain ⟨front, piece, back, rfl, written⟩ := stands.membersText
  exact (stands.comprises.captured written).within front back

/-- What is read as the outer container is captured from its text. -/
theorem OuterText.captured {rest indent : Text} {tree : Container}
    (written : OuterText dialect line rest text indent tree) :
    ∀ inner ∈ tree.cases, inner.Captured line text := by
  intro inner here
  obtain ⟨members, stands⟩ := written.exists_standsIn inner here
  exact stands.captured

/-- What is read is captured from the source. -/
theorem OuterContainer.captured_of_read {source : Text} {found : OuterContainer}
    (ran : OuterContainer.read source = .ok found) : ∀ inner ∈ found.tree.cases, inner.Captured 1 source := by
  intro inner here
  obtain ⟨members, stands⟩ := OuterContainer.exists_standsIn_of_read ran inner here
  exact stands.captured

end JasmineConversion
