import JasmineConversion.Proofs.Literal.Reports
import JasmineConversion.Proofs.Source.Indents
import JasmineConversion.Proofs.Source.LineEnds

/-! # Where arguments end

Each argument is a piece of text between commas that stand in code. Its literals and block comments are closed,
but what ends its last line comment may have been trimmed.
-/

namespace JasmineConversion

open Text Source

/-- White space neither closes a literal nor a block comment. -/
theorem Mode.Proper.flaw?_of_blank {mode : Mode} {c : Char} (proper : mode.Proper) (white : isBlank c = true)
    (closed : (mode.next c).flaw? = none) : mode.flaw? = none := by
  have other {d : Char} (solid : isBlank d = false) : c ≠ d := ne_of_isBlank white solid
  have backslash : c ≠ '\\' := other (by decide)
  have slash : c ≠ '/' := other (by decide)
  have star : c ≠ '*' := other (by decide)
  cases mode with
  | code => rfl
  | lineComment => rfl
  | slash => simp [Mode.next, slash, star, backslash, Mode.flaw?] at closed
  | literal delimiter =>
    have inside : c ≠ delimiter := by
      rintro rfl
      exact Bool.noConfusion ((proper c rfl).symm.trans (isDelimiter_of_isBlank white))
    simp [Mode.next, backslash, inside, Mode.flaw?] at closed
  | escape delimiter => cases closed
  | blockComment => simp [Mode.next, star, Mode.flaw?] at closed
  | blockStar => simp [Mode.next, slash, star, Mode.flaw?] at closed

namespace Source

variable {text blank piece first : Text} {more : List Text} {mode : Mode}

/-- What is closed in front of white space is closed behind it. -/
theorem closed_of_append_blank (proper : mode.Proper) (white : isBlankText blank = true)
    (closed : ((text ++ blank).foldl Mode.next mode).flaw? = none) :
    (text.foldl Mode.next mode).flaw? = none := by
  rw [List.foldl_append] at closed
  have here : (text.foldl Mode.next mode).Proper := proper.foldl text
  generalize text.foldl Mode.next mode = mode at closed here
  induction blank generalizing mode with
  | nil => exact closed
  | cons c blank ih =>
    rw [isBlankText_cons, Bool.and_eq_true] at white
    exact here.flaw?_of_blank white.1 (ih white.2 (mode.next c) closed (here.next c))

/-- White space is read in code and stays there. -/
theorem foldl_next_of_isBlankText (white : isBlankText blank = true) : blank.foldl Mode.next .code = .code := by
  induction blank with
  | nil => rfl
  | cons c blank ih =>
    rw [isBlankText_cons, Bool.and_eq_true] at white
    rw [List.foldl_cons, Mode.code_next_of_not_isDelimiter (Mode.isDelimiter_of_isBlank white.1), ih white.2]

/-- Trimming leaves literals and block comments closed. -/
theorem closed_trim (closed : (piece.foldl Mode.next .code).flaw? = none) :
    ((trim piece).foldl Mode.next .code).flaw? = none := by
  obtain ⟨lead, trail, leads, trails, split⟩ := exists_trim piece
  rw [split, List.append_assoc, List.foldl_append, foldl_next_of_isBlankText leads] at closed
  exact closed_of_append_blank Mode.proper_code trails closed

/-- A text has at least one segment. -/
theorem segmentsFrom_ne_nil {nesting : Nesting} {offset : Nat} : segmentsFrom nesting offset text ≠ .ok [] := by
  intro read
  cases text with
  | nil =>
    unfold segmentsFrom at read
    split at read <;> cases read
  | cons c text =>
    obtain ⟨pieces, -, read⟩ := exceptBind_eq_ok_iff.mp read
    split at read
    · cases read
    · split at read <;> cases read

/-- The pieces between commas have closed literals and block comments, the first one as it goes on. -/
theorem closed_of_segmentsFrom {nesting : Nesting} {offset : Nat}
    (read : segmentsFrom nesting offset text = .ok (first :: more)) :
    (first.foldl Mode.next nesting.mode).flaw? = none ∧
      ∀ piece ∈ more, (piece.foldl Mode.next .code).flaw? = none := by
  induction text generalizing nesting offset first more with
  | nil =>
    unfold segmentsFrom at read
    split at read
    · cases read
    · next noFlaw =>
      cases read
      refine ⟨?_, by simp⟩
      unfold Nesting.flaw? at noFlaw
      split at noFlaw
      · cases noFlaw
      · assumption
  | cons c text ih =>
    obtain ⟨pieces, further, read⟩ := exceptBind_eq_ok_iff.mp read
    split at read
    · next comma =>
      cases read
      simp only [atTopLevel, Bool.and_eq_true, decide_eq_true_eq] at comma
      obtain ⟨⟨inCode, -⟩, rfl⟩ := comma
      refine ⟨by rw [inCode]; rfl, ?_⟩
      cases more with
      | nil => simp
      | cons piece more =>
        obtain ⟨here, others⟩ := ih further
        rw [Nesting.mode_next, inCode] at here
        exact List.forall_mem_cons.mpr ⟨here, others⟩
    · cases pieces with
      | nil => exact absurd further segmentsFrom_ne_nil
      | cons piece pieces =>
        cases read
        obtain ⟨here, others⟩ := ih further
        rw [Nesting.mode_next] at here
        exact ⟨here, others⟩

/-- An argument ends in code or in a line comment. -/
theorem ends_of_splitArguments {arguments : List Text} {argument : Text}
    (split : splitArguments text = .ok arguments) (member : argument ∈ arguments) :
    argument.foldl Mode.next .code = .code ∨ argument.foldl Mode.next .code = .lineComment := by
  rw [← flaw?_eq_none_iff]
  unfold splitArguments at split
  split at split
  · next pieces read =>
    cases split
    obtain ⟨piece, inside, rfl⟩ := List.mem_map.mp (mem_of_mem_dropEmptyLast member)
    cases pieces with
    | nil => cases inside
    | cons first more =>
      obtain ⟨here, others⟩ := closed_of_segmentsFrom read
      exact closed_trim ((List.forall_mem_cons.mpr ⟨here, others⟩ : ∀ piece ∈ first :: more, _) piece inside)
  · cases split

end Source

end JasmineConversion
