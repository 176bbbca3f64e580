import JasmineConversion.Proofs.Source.Enclosure

/-! # Indenting code

Code is indented line by line, whatever its lines stand in: a line of a string or of a comment gets
its indent like any other. A space or a tab behind a line feed neither ends a comment or a literal
nor starts one, so indented code is read as the code is.
-/

namespace JasmineConversion

open Text Source

/-- A text, and the same text with spaces and tabs put behind some of its line feeds. -/
inductive Indents : (plain text : Text) → Prop
  | nil : Indents [] []
  | cons {plain text : Text} (c : Char) (rest : Indents plain text) : Indents (c :: plain) (c :: text)
  | newline {indent plain text : Text} (blank : ∀ c ∈ indent, isIndent c = true)
      (rest : Indents plain text) : Indents ('\n' :: plain) ('\n' :: indent ++ text)

namespace Indents

variable {plain text : Text}

theorem refl (text : Text) : Indents text text := by
  induction text with
  | nil => exact .nil
  | cons c text ih => exact .cons c ih

/-- Two texts that are indented are so together. -/
theorem append {more moreText : Text} (first : Indents plain text) (second : Indents more moreText) :
    Indents (plain ++ more) (text ++ moreText) := by
  induction first with
  | nil => exact second
  | cons c _ ih => exact .cons c ih
  | newline blank _ ih =>
    rw [List.append_assoc]
    exact .newline blank ih

/-- A text without line feeds is not indented. -/
theorem eq_of_not_mem (indents : Indents plain text) (single : '\n' ∉ plain) : text = plain := by
  induction indents with
  | nil => rfl
  | cons c _ ih => rw [ih (List.not_mem_of_not_mem_cons single)]
  | newline => exact absurd List.mem_cons_self single

/-- An indented text is taken apart where the text is. -/
theorem exists_append {first second : Text} (indents : Indents (first ++ second) text) :
    ∃ front back, text = front ++ back ∧ Indents first front ∧ Indents second back := by
  induction first generalizing text with
  | nil => exact ⟨[], text, rfl, .nil, indents⟩
  | cons c first ih =>
    cases indents with
    | cons _ rest =>
      obtain ⟨front, back, rfl, isFront, isBack⟩ := ih rest
      exact ⟨c :: front, back, rfl, .cons c isFront, isBack⟩
    | @newline indent _ _ blank rest =>
      obtain ⟨front, back, rfl, isFront, isBack⟩ := ih rest
      exact ⟨'\n' :: indent ++ front, back, by simp, .newline blank isFront, isBack⟩

end Indents

namespace Mode

/-- What delimits the literal that the reading is inside of. -/
def delimiter? : Mode → Option Char
  | literal delimiter => some delimiter
  | escape delimiter => some delimiter
  | _ => none

/-- A mode that reading code from its start leads to. -/
def Proper (mode : Mode) : Prop :=
  ∀ delimiter ∈ mode.delimiter?, isDelimiter delimiter = true

theorem proper_code : Proper code := by
  simp [Proper, delimiter?]

/-- A proper mode goes on to a proper one. -/
theorem Proper.next {mode : Mode} (proper : mode.Proper) (c : Char) : (mode.next c).Proper := by
  intro d isDelimiter
  cases mode with
  | code =>
    simp only [Mode.next] at isDelimiter
    split at isDelimiter
    · cases isDelimiter
    · split at isDelimiter
      · next isQuote =>
        cases isDelimiter
        exact isDelimiter_of_isQuote isQuote
      · cases isDelimiter
  | slash =>
    simp only [Mode.next] at isDelimiter
    repeat' split at isDelimiter
    all_goals cases isDelimiter
    all_goals rfl
  | literal delimiter =>
    simp only [Mode.next] at isDelimiter
    repeat' split at isDelimiter
    all_goals cases isDelimiter
    all_goals exact proper d rfl
  | escape delimiter =>
    cases isDelimiter
    exact proper d rfl
  | lineComment =>
    simp only [Mode.next] at isDelimiter
    split at isDelimiter <;> cases isDelimiter
  | blockComment =>
    simp only [Mode.next] at isDelimiter
    split at isDelimiter <;> cases isDelimiter
  | blockStar =>
    simp only [Mode.next] at isDelimiter
    repeat' split at isDelimiter
    all_goals cases isDelimiter

/-- A proper mode goes on to a proper one over any text. -/
theorem Proper.foldl {mode : Mode} (proper : mode.Proper) (text : Text) :
    (text.foldl Mode.next mode).Proper := by
  induction text generalizing mode with
  | nil => exact proper
  | cons c text ih => exact ih (proper.next c)

/-- An indent behind a line feed changes no mode. -/
theorem Proper.next_indent {mode : Mode} (proper : mode.Proper) {c : Char} (indents : isIndent c = true) :
    (mode.next '\n').next c = mode.next '\n' := by
  have inside : ∀ d, d ∈ mode.delimiter? →
      (literal d).next '\n' = literal d ∧ (literal d).next c = literal d := by
    intro d isDelimiter
    have notDelimiter : ∀ e, e = '\n' ∨ isIndent e = true → e ≠ '\\' ∧ e ≠ d := by
      rintro e blank
      have noDelimiter : Mode.isDelimiter e = false ∧ e ≠ '\\' := by
        simp only [isIndent, Bool.or_eq_true, beq_iff_eq] at blank
        rcases blank with rfl | rfl | rfl <;> decide
      refine ⟨noDelimiter.2, ?_⟩
      rintro rfl
      rw [proper e isDelimiter] at noDelimiter
      cases noDelimiter.1
    obtain ⟨noEscape, noEnd⟩ := notDelimiter c (.inr indents)
    simp [Mode.next, (notDelimiter '\n' (.inl rfl)).2, noEscape, noEnd]
  cases mode with
  | literal d => rw [(inside d rfl).1, (inside d rfl).2]
  | escape d => exact (inside d rfl).2
  | _ =>
    simp only [isIndent, Bool.or_eq_true, beq_iff_eq] at indents
    rcases indents with rfl | rfl <;> rfl

end Mode

namespace Bracket

variable {bracket : Bracket}

/-- An indent is read without effect behind a line feed. -/
theorem scan_indent {mode : Mode} (proper : mode.Proper) {inner : Nat} {indent : Text}
    (blank : ∀ c ∈ indent, isIndent c = true) :
    bracket.scan (mode.next '\n', inner) indent = some (mode.next '\n', inner) := by
  induction indent with
  | nil => rfl
  | cons c indent ih =>
    obtain ⟨here, further⟩ := List.forall_mem_cons.mp blank
    have noBracket : c ≠ bracket.opener ∧ c ≠ bracket.closer := by
      simp only [isIndent, Bool.or_eq_true, beq_iff_eq] at here
      rcases here with rfl | rfl <;> cases bracket <;> decide
    have steady : bracket.step (mode.next '\n', inner) c = some (mode.next '\n', inner) := by
      by_cases inCode : mode.next '\n' = .code
      · rw [inCode, step_of_other noBracket.1 noBracket.2, ← inCode, proper.next_indent here]
      · rw [step_of_ne_code inCode, proper.next_indent here]
    rw [scan_cons, steady, Option.bind_some, ih further]

/-- Indented code is read as the code is. -/
theorem scan_indents {plain text : Text} (indents : Indents plain text) {mode : Mode} (proper : mode.Proper)
    (inner : Nat) : bracket.scan (mode, inner) text = bracket.scan (mode, inner) plain := by
  induction indents generalizing mode inner with
  | nil => rfl
  | cons c _ ih =>
    rw [scan_cons, scan_cons]
    cases read : bracket.step (mode, inner) c with
    | none => rfl
    | some after =>
      obtain ⟨next, count⟩ := after
      obtain rfl := mode_of_step read
      exact ih (proper.next c) count
  | newline blank _ ih =>
    rw [List.cons_append, scan_cons, scan_cons]
    cases read : bracket.step (mode, inner) '\n' with
    | none => rfl
    | some after =>
      obtain ⟨next, count⟩ := after
      obtain rfl := mode_of_step read
      rw [Option.bind_some, Option.bind_some, scan_append, scan_indent proper blank, Option.bind_some,
        ih (proper.next '\n')]

theorem passes_indents_iff {plain text : Text} (indents : Indents plain text) :
    bracket.Passes text ↔ bracket.Passes plain :=
  forall_congr' fun inner => by rw [scan_indents indents Mode.proper_code]

end Bracket

end JasmineConversion
