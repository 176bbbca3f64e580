import JasmineConversion.Proofs.Body.Tokens

/-! # Replacing the references to the test case

The member accesses on `this` split a text into pieces, and nothing else does. Where they are replaced by those to a
fixture variable, the pieces stay as they are, and no access is left or put together. Replacing them again therefore
changes nothing.
-/

namespace JasmineConversion

open Text

namespace Body

variable {fixture front back rest text : Text} {pieces : List Text} {previous : Option Char} {c : Char}

/-- The end of one of several pieces that another one follows, given by the text in front of it. The pieces are joined by
member accesses on `this`. -/
def JointAt (pieces : List Text) (front : Text) : Prop :=
  ∃ first second, pieces = first ++ second ∧ first ≠ [] ∧ second ≠ [] ∧ front = join selfAccess first

/-- The pieces that are left of a text without its member accesses on `this`, where it follows a given character. An
access stands in the text exactly where one piece ends and another one follows. -/
structure SelfPieces (previous : Option Char) (text : Text) (pieces : List Text) : Prop where
  whole : text = join selfAccess pieces
  joints : ∀ front back, text = front ++ back → (SelfAt (front.getLast?.or previous) back ↔ JointAt pieces front)

/-! ## Pieces of a text -/

theorem not_jointAt_nil : ¬ JointAt [] front := by
  rintro ⟨first, second, whole, nonempty, -⟩
  exact nonempty (List.append_eq_nil_iff.mp whole.symm).1

/-- The first piece ends at a joint if there are others, whose joints are behind it and the access that follows. -/
theorem jointAt_cons {piece : Text} : JointAt (piece :: pieces) front ↔
    (pieces ≠ [] ∧ front = piece) ∨ ∃ behind, JointAt pieces behind ∧ front = piece ++ selfAccess ++ behind := by
  constructor
  · rintro ⟨first, second, whole, nonempty, more, rfl⟩
    obtain ⟨lead, others, rfl⟩ := List.exists_cons_of_ne_nil nonempty
    obtain ⟨rfl, rfl⟩ := List.cons.inj whole
    by_cases only : others = []
    · subst only
      exact .inl ⟨more, rfl⟩
    · exact .inr ⟨_, ⟨others, second, rfl, only, more, rfl⟩, join_cons only⟩
  · rintro (⟨more, rfl⟩ | ⟨_, ⟨first, second, rfl, nonempty, more, rfl⟩, rfl⟩)
    · exact ⟨[front], pieces, rfl, List.cons_ne_nil _ _, more, rfl⟩
    · exact ⟨piece :: first, second, rfl, List.cons_ne_nil _ _, more, (join_cons nonempty).symm⟩

/-- No access starts inside another one. -/
theorem not_selfAt_of_rest (front : Text) (nonempty : front ≠ []) (split : selfAccess = front ++ back)
    (more : back ≠ []) : ¬ SelfAt previous (back ++ rest) := by
  rintro ⟨-, d, others, same, -⟩
  obtain ⟨e, back, rfl⟩ := List.exists_cons_of_ne_nil more
  obtain ⟨d', front, rfl⟩ := List.exists_cons_of_ne_nil nonempty
  rw [selfAccess_eq] at split same
  obtain ⟨-, split⟩ := List.cons.inj split
  obtain ⟨rfl, -⟩ := List.cons.inj same
  have inside : 't' ∈ ['h', 'i', 's', '.'] := split ▸ List.mem_append_right front List.mem_cons_self
  exact absurd inside (by decide)

namespace SelfPieces

/-- The empty text is one empty piece. -/
theorem nil (previous : Option Char) : SelfPieces previous [] [[]] where
  whole := rfl
  joints := by
    intro front back split
    obtain ⟨rfl, rfl⟩ := List.append_eq_nil_iff.mp split.symm
    constructor
    · rintro ⟨-, d, more, same, -⟩
      cases same
    · intro joint
      rcases jointAt_cons.mp joint with ⟨more, -⟩ | ⟨behind, joint, -⟩
      · exact absurd rfl more
      · exact absurd joint not_jointAt_nil

/-- A character in front of which no access stands goes on the first piece. -/
theorem cons {piece : Text} (elsewhere : ¬ SelfAt previous (c :: text))
    (split : SelfPieces (some c) text (piece :: pieces)) :
    SelfPieces previous (c :: text) ((c :: piece) :: pieces) where
  whole := by rw [join_cons_cons, ← split.whole]
  joints := by
    rintro (- | ⟨d, front⟩) back same
    · obtain rfl : c :: text = back := same
      refine ⟨fun here => absurd here elsewhere, fun joint => ?_⟩
      rcases jointAt_cons.mp joint with ⟨-, empty⟩ | ⟨behind, -, empty⟩
      · cases empty
      · cases empty
    · obtain ⟨rfl, further⟩ := List.cons.inj same
      rw [getLast?_cons_or, split.joints front back further, jointAt_cons, jointAt_cons]
      simp only [List.cons_append, List.cons.injEq, true_and]

/-- An access at the front comes behind an empty piece. -/
theorem access (here : SelfAt previous (selfAccess ++ text)) (nonempty : pieces ≠ [])
    (split : SelfPieces (some '.') text pieces) : SelfPieces previous (selfAccess ++ text) ([] :: pieces) where
  whole := by rw [join_cons nonempty, ← split.whole, List.nil_append]
  joints := by
    -- An index is at the front of the access, behind it or inside it.
    intro front back same
    by_cases empty : front = []
    · subst empty
      obtain rfl : selfAccess ++ text = back := same
      exact ⟨fun _ => jointAt_cons.mpr (.inl ⟨nonempty, rfl⟩), fun _ => here⟩
    rw [jointAt_cons]
    by_cases reached : selfAccess <+: front
    · obtain ⟨behind, rfl⟩ := reached
      have further : text = behind ++ back := List.append_cancel_left (same.trans (List.append_assoc ..))
      have last : (selfAccess ++ behind).getLast?.or previous = behind.getLast?.or (some '.') := by
        rw [List.getLast?_append, Option.or_assoc]
        rfl
      rw [last, split.joints behind back further]
      simp [empty]
    · obtain ⟨inside, isAccess, rfl⟩ : ∃ inside, selfAccess = front ++ inside ∧ back = inside ++ text := by
        rcases List.append_eq_append_iff.mp same with ⟨behind, rfl, -⟩ | found
        · exact absurd (List.prefix_append selfAccess behind) reached
        · exact found
      have more : inside ≠ [] := by
        rintro rfl
        exact reached ⟨[], by rw [isAccess, List.append_nil, List.append_nil]⟩
      refine ⟨fun other => absurd other (not_selfAt_of_rest front empty isAccess more), ?_⟩
      rintro (⟨-, none⟩ | ⟨behind, -, rfl⟩)
      · exact absurd none empty
      · exact absurd (List.prefix_append selfAccess behind) reached

end SelfPieces

/-- An access at the front is replaced, and the search goes on behind its dot. -/
theorem replaceFrom_access (here : SelfAt previous (selfAccess ++ text)) :
    replaceFrom (toFixture fixture) 0 previous (selfAccess ++ text) =
      fixture ++ ['.'] ++ replaceFrom (toFixture fixture) 0 (some '.') text := by
  have found : toFixture fixture previous (selfAccess ++ text) = some (selfAccess.length, fixture ++ ['.']) :=
    toFixture_eq_some.mpr ⟨here, rfl⟩
  rw [selfAccess_eq] at found ⊢
  rw [List.cons_append] at found ⊢
  rw [replaceFrom, found]
  rfl

/-- A text is split at its accesses, and the accesses to a fixture variable that take their place join the pieces. -/
theorem exists_selfPieces (fixture : Text) (previous : Option Char) (text : Text) :
    ∃ piece pieces, SelfPieces previous text (piece :: pieces) ∧
      replaceFrom (toFixture fixture) 0 previous text = join (fixture ++ ['.']) (piece :: pieces) := by
  induction width : text.length using Nat.strongRecOn generalizing previous text with
  | _ length shorter =>
    subst width
    cases text with
    | nil => exact ⟨[], [], .nil previous, rfl⟩
    | cons c rest =>
      by_cases here : SelfAt previous (c :: rest)
      · obtain ⟨fresh, d, more, same, starts⟩ := here
        obtain ⟨piece, pieces, split, replaced⟩ :=
          shorter (d :: more).length (by rw [same, List.length_append]; exact Nat.lt_add_of_pos_left (by decide))
            (some '.') (d :: more) rfl
        have access : SelfAt previous (selfAccess ++ d :: more) := ⟨fresh, d, more, rfl, starts⟩
        rw [same]
        refine ⟨[], piece :: pieces, .access access (List.cons_ne_nil _ _) split, ?_⟩
        rw [replaceFrom_access access, join_cons (List.cons_ne_nil _ _), replaced, List.nil_append]
      · obtain ⟨piece, pieces, split, replaced⟩ := shorter rest.length (Nat.lt_succ_self _) (some c) rest rfl
        refine ⟨c :: piece, pieces, .cons here split, ?_⟩
        rw [replaceFrom, toFixture_eq_none.mpr here, join_cons_cons, ← replaced]

/-! ## Replacing the references again -/

/-- A text without accesses stays as it is. -/
theorem replaceSelf_of_not_holdsSelf (named : Pattern.Identifier fixture) (nothing : ¬ HoldsSelf text) :
    replaceSelf fixture text = .ok text := by
  rw [replaceSelf_eq named, replaceAll, replaceFrom_of_findsNothing]
  refine (toFixture_dotted named).findsNothing_iff.mpr fun front back split => toFixture_eq_none.mpr fun here => ?_
  exact nothing ⟨front, back, split, here⟩

/-- With every fixture variable that is allowed, exactly the member accesses on `this` are replaced. The pieces of the
code between them stay, no access is left or put together, and replacing again changes nothing. -/
theorem replaceSelf_complete (allowed : SettingValue.fixtureFault? fixture = none) (code : Text) :
    ∃ pieces replaced, SelfPieces none code pieces ∧ replaced = join (fixture ++ ['.']) pieces ∧
      replaceSelf fixture code = .ok replaced ∧ ¬ HoldsSelf replaced ∧
      replaceSelf fixture replaced = .ok replaced := by
  obtain ⟨named, other⟩ := identifier_of_fixtureFault? allowed
  obtain ⟨piece, pieces, split, same⟩ := exists_selfPieces fixture none code
  have replaced := replaceSelf_eq named code
  rw [replaceAll, same] at replaced
  have nothing := not_holdsSelf_of_replaceSelf named other replaced
  exact ⟨_, _, split, rfl, replaced, nothing, replaceSelf_of_not_holdsSelf named nothing⟩

/-- A chain of accesses, `this` on its own, a name that ends in it, and a member that starts beyond ASCII. -/
def chained : Text := "this.this.x( this ); isthis.y = 2 this.é; a.this.$".toList

/-- Self references behind one another are all replaced, and no word that only looks like one is. -/
theorem replaceSelf_chained : SettingValue.fixtureFault? "$ñthis".toList = none ∧
    (replaceSelf "$ñthis".toList chained).toOption =
      some "$ñthis.$ñthis.x( this ); isthis.y = 2 this.é; a.$ñthis.$".toList ∧
    ∃ pieces replaced, SelfPieces none chained pieces ∧ replaced = join ("$ñthis".toList ++ ['.']) pieces ∧
      replaceSelf "$ñthis".toList chained = .ok replaced ∧ ¬ HoldsSelf replaced ∧
      replaceSelf "$ñthis".toList replaced = .ok replaced := by
  have allowed : SettingValue.fixtureFault? "$ñthis".toList = none := by decide +kernel
  exact ⟨allowed, by decide +kernel, replaceSelf_complete allowed chained⟩

end Body

end JasmineConversion
