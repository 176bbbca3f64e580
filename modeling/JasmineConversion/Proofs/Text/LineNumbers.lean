import JasmineConversion.Proofs.Text.Lines

/-! # Lines by their numbers

The number of a line is that of the line feeds in front of it. A line of a piece is part of a line of the text around
it.
-/

namespace JasmineConversion.Text

variable {front rest line : Text} {number : Nat}

/-- A line of a front starts the line of this number in the whole. -/
theorem exists_line_append_right (here : (lines front)[number]? = some line) (back : Text) :
    ∃ whole, (lines (front ++ back))[number]? = some whole ∧ line <+: whole := by
  induction front using induction_on_lines generalizing number with
  | single text single =>
    obtain ⟨first, more, split⟩ := List.exists_cons_of_ne_nil (lines_ne_nil back)
    rw [lines_of_not_mem single] at here
    rw [lines_append_of_not_mem single split]
    cases number with
    | zero => exact ⟨text ++ first, rfl, by simp_all⟩
    | succ number => cases here
  | more text front single ih =>
    rw [List.append_assoc, List.cons_append, lines_append_newline single]
    rw [lines_append_newline single] at here
    cases number with
    | zero => exact ⟨text, rfl, by simp_all⟩
    | succ number => exact ih here

/-- A line of a rest ends the line in the whole that is as many further down. -/
theorem exists_line_append_left (front : Text) (here : (lines rest)[number]? = some line) :
    ∃ whole, (lines (front ++ rest))[front.count '\n' + number]? = some whole ∧ line <:+ whole := by
  induction front using induction_on_lines with
  | single text single =>
    obtain ⟨first, more, split⟩ := List.exists_cons_of_ne_nil (lines_ne_nil rest)
    rw [List.count_eq_zero_of_not_mem single, Nat.zero_add, lines_append_of_not_mem single split]
    rw [split] at here
    cases number with
    | zero => exact ⟨text ++ first, rfl, by simp_all⟩
    | succ number => exact ⟨line, here, List.suffix_refl line⟩
  | more text front single ih =>
    obtain ⟨whole, found, ends⟩ := ih
    refine ⟨whole, ?_, ends⟩
    have count : (text ++ '\n' :: front).count '\n' + number = front.count '\n' + number + 1 := by
      rw [List.count_append, List.count_eq_zero_of_not_mem single, List.count_cons_self]
      omega
    rw [count, List.append_assoc, List.cons_append, lines_append_newline single, List.getElem?_cons_succ]
    exact found

/-- A line of a piece is part of a line of the text around it. -/
theorem exists_line_of_infix {piece : Text} (front back : Text) (here : (lines piece)[number]? = some line) :
    ∃ whole, (lines (front ++ piece ++ back))[front.count '\n' + number]? = some whole ∧ line <:+: whole := by
  obtain ⟨behind, found, ends⟩ := exists_line_append_left front here
  obtain ⟨whole, found, begins⟩ := exists_line_append_right found back
  exact ⟨whole, found, ends.isInfix.trans begins.isInfix⟩

/-- The line of a place. -/
theorem exists_line_of_place (front rest : Text) : ∃ line, (lines (front ++ rest))[front.count '\n']? = some line := by
  obtain ⟨first, more, split⟩ := List.exists_cons_of_ne_nil (lines_ne_nil rest)
  obtain ⟨whole, found, -⟩ := exists_line_append_left front (by rw [split]; rfl : (lines rest)[0]? = some first)
  exact ⟨whole, found⟩

end JasmineConversion.Text
