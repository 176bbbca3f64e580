import JasmineConversion.Proofs.Suite.DirectiveNames
import JasmineConversion.Proofs.Suite.Pieces

/-! # Test cases as they are written

Every test case of the outer container is written in it as a list of members: each test with its key,
and the directives as a literal. What the directives of the test case say is what the literal says.
-/

namespace JasmineConversion

open Text Source Pattern

variable {dialect : Dialect} {line : Nat} {text : Text}

/-- A test case whose members are written somewhere in a text. -/
structure TestCase.WrittenIn (dialect : Dialect) (text : Text) (inner : TestCase) (members : List Member) :
    Prop where
  comprises : inner.Comprises members
  written : ∃ line name marked piece, CaseText dialect line name marked piece members ∧ piece <:+: text

/-- What is written as a part of a text is part of it. -/
theorem PieceIn.exists_part {written : Nat → Text → Prop} (inside : PieceIn written line text) :
    ∃ line piece, written line piece ∧ piece <:+: text := by
  obtain ⟨front, piece, back, rfl, here⟩ := inside
  exact ⟨_, piece, here, List.infix_append front piece back⟩

/-- Each test case of the outer container is written in its text. -/
theorem OuterText.exists_writtenIn {rest indent : Text} {tree : Container}
    (written : OuterText dialect line rest text indent tree) :
    ∀ inner ∈ tree.cases, ∃ members, inner.WrittenIn dialect text members := by
  intro inner here
  obtain ⟨members, comprises, name, marked, inside⟩ := written.exists_standsIn inner here
  obtain ⟨line, piece, isCase, within⟩ := inside.exists_part
  exact ⟨members, comprises, line, name, marked, piece, isCase, within⟩

/-- The literal that the directives of a test case are written as, if it has any. -/
inductive DirectivesIn (text : Text) (members : List Member) : Option Literal → Prop
  | none (absent : ∀ should, Member.should should ∉ members) : DirectivesIn text members none
  | some {key raw : Text} {literal : Literal} {should : Should} (isKey : Key "_should".toList key)
      (here : key ++ '{' :: raw ++ ['}'] <:+: text) (read : Literal.read ('{' :: raw ++ ['}']) = .ok literal)
      (isMember : Member.should should ∈ members)
      (given : SuiteReader.directives {} (SuiteReader.entriesOf literal) = .ok should) :
      DirectivesIn text members (some literal)

namespace TestCase.WrittenIn

variable {inner : TestCase} {members : List Member}

/-- A test case that is written in a part of a text is written in it. -/
theorem of_infix {whole : Text} (written : inner.WrittenIn dialect text members) (inside : text <:+: whole) :
    inner.WrittenIn dialect whole members := by
  obtain ⟨comprises, line, name, marked, piece, isCase, here⟩ := written
  exact ⟨comprises, line, name, marked, piece, isCase, here.trans inside⟩

/-- Each member of a test case is written in the text. -/
theorem exists_infix_of_mem (written : inner.WrittenIn dialect text members) {member : Member}
    (isMember : member ∈ members) :
    ∃ line piece, MemberText dialect line piece member ∧ piece <:+: text := by
  obtain ⟨-, line, name, marked, piece, isCase, here⟩ := written
  obtain @⟨header, mark, rest, _, named, marking, isMembers, unmarked, inside⟩ := isCase
  obtain ⟨line', inner, isMember, within⟩ := (isMembers.pieceIn isMember).exists_part
  have around : rest <:+: '{' :: header ++ mark ++ rest ++ ['}'] := ⟨'{' :: header ++ mark, ['}'], by simp⟩
  exact ⟨line', inner, isMember, (within.trans around).trans here⟩

/-- What the directives of a test case say about a name is what the literal says. -/
theorem exists_directives (written : inner.WrittenIn .accepted text members) :
    ∃ directives, DirectivesIn text members directives ∧ ∀ name,
      (inner.should.any (·.isIgnored name) = true ↔ ∃ literal ∈ directives, literal.Ignores name) ∧
      ∀ message, inner.should.bind (·.expectedError name) = some message ↔
        ∃ literal ∈ directives, literal.Expects name message := by
  have only := written.comprises.should
  cases given : inner.should with
  | none =>
    rw [given] at only
    refine ⟨none, .none fun should isMember => ?_, by simp⟩
    have picked : should ∈ members.filterMap Member.should? := List.mem_filterMap.mpr ⟨_, isMember, rfl⟩
    rw [← only] at picked
    cases picked
  | some should =>
    rw [given] at only
    obtain ⟨member, isMember, isShould⟩ := List.mem_filterMap.mp
      (show should ∈ members.filterMap Member.should? from only ▸ List.mem_singleton_self should)
    obtain ⟨line, piece, isText, here⟩ := written.exists_infix_of_mem isMember
    cases isText with
    | should isKey accepted =>
      cases isShould
      obtain ⟨-, literal, read, ran⟩ := accepted
      refine ⟨some literal, .some isKey here read isMember ran, fun name => ?_⟩
      simpa using SuiteReader.directives_of_read read ran name
    | _ => cases isShould

end TestCase.WrittenIn

end JasmineConversion
