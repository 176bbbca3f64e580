import JasmineConversion.Proofs.Source.Indents
import JasmineConversion.Proofs.Spec.Layout

/-! # Generated code without its indents

The lines of generated code, put together without indents, are the texts that the code is made of,
each with a line feed behind it. The code itself is this text with an indent in front of its lines.
-/

namespace JasmineConversion

open Text

namespace Line

/-- The text of generated code without its indents. -/
def unindented (code : List Line) : Text :=
  code.flatMap fun line => line.text ++ ['\n']

@[simp] theorem unindented_nil : unindented [] = [] := rfl

@[simp] theorem unindented_blank : unindented blank = ['\n'] := rfl

@[simp] theorem unindented_append (first second : List Line) :
    unindented (first ++ second) = unindented first ++ unindented second :=
  List.flatMap_append

@[simp] theorem unindented_deeper (code : List Line) : unindented (deeper code) = unindented code := by
  simp [unindented, deeper, List.flatMap_map]

/-- The lines of code end with a line feed each. -/
theorem unindented_eq_unlines {code : List Line} (nonempty : code ≠ []) :
    unindented code = unlines (code.map (·.text)) ++ ['\n'] := by
  induction code with
  | nil => exact absurd rfl nonempty
  | cons line code ih =>
    change line.text ++ ['\n'] ++ unindented code = _
    by_cases last : code = []
    · simp [last, unlines, join]
    · rw [ih last, List.map_cons, unlines_cons (by simpa using last)]
      simp

@[simp] theorem unindented_ofText (text : Text) : unindented (ofText text) = text ++ ['\n'] := by
  rw [unindented_eq_unlines (by simp [ofText, lines_ne_nil]), ofText, List.map_map]
  simp [Function.comp_def, unlines_lines]

@[simp] theorem unindented_block (head : Text) (inner : List Line) (tail : Text) :
    unindented (block head inner tail) = head ++ '\n' :: unindented inner ++ tail ++ ['\n'] := by
  simp [block]

/-- A line is rendered behind an indent. -/
theorem exists_indent_of_render {unit : Text} (blank : ∀ c ∈ unit, isIndent c = true) (level : Int)
    (line : Line) :
    ∃ indent, (∀ c ∈ indent, isIndent c = true) ∧ render unit level line = indent ++ line.text := by
  unfold render
  split
  · next empty => exact ⟨[], by simp, by simpa using empty⟩
  · exact ⟨_, fun c member => blank c (mem_of_mem_repeated member), rfl⟩

/-- Generated code is its unindented text with indents, the first one at its start. -/
theorem exists_indents_of_renderAll {unit : Text} (blank : ∀ c ∈ unit, isIndent c = true) (level : Int)
    {code : List Line} (nonempty : code ≠ []) :
    ∃ plain indent text, unindented code = plain ++ ['\n'] ∧ renderAll unit level code = indent ++ text ∧
      (∀ c ∈ indent, isIndent c = true) ∧ Indents plain text := by
  induction code with
  | nil => exact absurd rfl nonempty
  | cons line code ih =>
    obtain ⟨indent, isBlank, rendered⟩ := exists_indent_of_render blank level line
    unfold renderAll
    rw [List.map_cons, rendered]
    by_cases last : code = []
    · subst last
      exact ⟨line.text, indent, line.text, by simp [unindented], rfl, isBlank, .refl line.text⟩
    · obtain ⟨plain, between, text, written, laidOut, isBetween, indents⟩ := ih last
      refine ⟨line.text ++ '\n' :: plain, indent, line.text ++ '\n' :: between ++ text, ?_, ?_, isBlank, ?_⟩
      · change line.text ++ ['\n'] ++ unindented code = _
        rw [written]
        simp
      · rw [unlines_cons (by simpa using last)]
        change _ ++ '\n' :: renderAll unit level code = _
        rw [laidOut]
        simp
      · rw [List.append_assoc]
        exact (Indents.refl line.text).append (.newline isBetween indents)

end Line

end JasmineConversion
