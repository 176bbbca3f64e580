import JasmineConversion.Proofs.Text.Front
import JasmineConversion.Proofs.Text.Lines
import JasmineConversion.Spec.Line

/-! # Indents of generated code

Generated code keeps its lines when it is put together, and the indent of a line tells its depth:
code that is deeper starts with one more unit, and a unit starts with no letter. So a line with a
given indent and a given word behind it comes from a line of that depth, whatever the code says.
-/

namespace JasmineConversion

open Text

namespace Text

/-- Copies of a text are put one behind the other. -/
theorem repeated_add (first second : Nat) (text : Text) :
    repeated (first + second) text = repeated first text ++ repeated second text := by
  rw [repeated, ← List.replicate_append_replicate, List.flatten_append]
  rfl

theorem repeated_one (text : Text) : repeated 1 text = text := by
  simp [repeated]

/-- Copies of a text have only characters of it. -/
theorem mem_of_mem_repeated {count : Nat} {text : Text} {c : Char} (member : c ∈ repeated count text) :
    c ∈ text := by
  obtain ⟨copy, isCopy, here⟩ := List.mem_flatten.mp member
  rwa [List.eq_of_mem_replicate isCopy] at here

theorem startsWith_nil {lead : Text} (nonempty : lead ≠ []) : startsWith lead [] = false := by
  obtain ⟨c, lead, rfl⟩ := List.exists_cons_of_ne_nil nonempty
  rfl

/-- What two texts start with in common says nothing about what is behind. -/
theorem startsWith_append_append (front lead text : Text) :
    startsWith (front ++ lead) (front ++ text) = startsWith lead text := by
  induction front with
  | nil => rfl
  | cons c front ih => simpa [startsWith, after?] using ih

end Text

/-- An indent unit: spaces and tabs, at least one. -/
structure IsUnit (unit : Text) : Prop where
  ne_nil : unit ≠ []
  indents : ∀ c ∈ unit, isIndent c = true

/-- A word that stands at the start of a line behind its indent. -/
structure IsWord (word : Text) : Prop where
  ne_nil : word ≠ []
  stops : Stops isIndent word

namespace IsUnit

variable {unit word text : Text}

theorem newline_not_mem (isUnit : IsUnit unit) : '\n' ∉ unit :=
  fun member => absurd (isUnit.indents _ member) (by decide)

/-- A word behind an indent is not the start of a deeper line. -/
theorem startsWith_deeper (isUnit : IsUnit unit) (isWord : IsWord word) (count : Nat) {more : Nat}
    (deeper : 0 < more) :
    startsWith (repeated count unit ++ word) (repeated (count + more) unit ++ text) = false := by
  obtain ⟨more, rfl⟩ : ∃ rest, more = 1 + rest := ⟨more - 1, by omega⟩
  rw [repeated_add, repeated_add, repeated_one, List.append_assoc, List.append_assoc,
    startsWith_append_append]
  obtain ⟨w, word, rfl⟩ := List.exists_cons_of_ne_nil isWord.ne_nil
  obtain ⟨u, unit, rfl⟩ := List.exists_cons_of_ne_nil isUnit.ne_nil
  have indents := isUnit.indents u List.mem_cons_self
  have stops := (stops_cons _ _ _).mp isWord.stops
  have other : w ≠ u := by
    rintro rfl
    rw [indents] at stops
    cases stops
  simp [startsWith, after?, other]

/-- A deeper indent is not the start of a line that has another word behind its own. -/
theorem startsWith_shallower (isUnit : IsUnit unit) (stops : Stops isIndent text) (count : Nat) {more : Nat}
    (deeper : 0 < more) :
    startsWith (repeated (count + more) unit ++ word) (repeated count unit ++ text) = false := by
  obtain ⟨more, rfl⟩ : ∃ rest, more = 1 + rest := ⟨more - 1, by omega⟩
  rw [repeated_add, repeated_add, repeated_one, List.append_assoc, List.append_assoc,
    startsWith_append_append]
  obtain ⟨u, unit, rfl⟩ := List.exists_cons_of_ne_nil isUnit.ne_nil
  have indents := isUnit.indents u List.mem_cons_self
  cases text with
  | nil => rfl
  | cons c text =>
    have other : u ≠ c := by
      rintro rfl
      rw [(stops_cons _ _ _).mp stops] at indents
      cases indents
    simp [startsWith, after?, other]

end IsUnit

namespace Line

/-- No line of code holds a line feed. -/
def Single (code : List Line) : Prop :=
  ∀ line ∈ code, '\n' ∉ line.text

theorem ofText_of_not_mem {text : Text} (single : '\n' ∉ text) : ofText text = [⟨0, text⟩] := by
  rw [ofText, lines_of_not_mem single]
  rfl

theorem block_ne_nil (head : Text) (inner : List Line) (tail : Text) : block head inner tail ≠ [] := by
  simp [block, ofText, lines_ne_nil]

theorem mem_deeper {code : List Line} {line : Line} :
    line ∈ deeper code ↔ ∃ inner ∈ code, line = ⟨inner.depth + 1, inner.text⟩ := by
  simp [deeper, eq_comm]

@[simp] theorem single_nil : Single [] := by
  simp [Single]

@[simp] theorem single_append {first second : List Line} :
    Single (first ++ second) ↔ Single first ∧ Single second :=
  List.forall_mem_append

@[simp] theorem single_flatMap {α : Type} {values : List α} {code : α → List Line} :
    Single (values.flatMap code) ↔ ∀ value ∈ values, Single (code value) := by
  unfold Single
  constructor
  · intro single value member line isLine
    exact single line (List.mem_flatMap.mpr ⟨value, member, isLine⟩)
  · intro single line isLine
    obtain ⟨value, member, isLine⟩ := List.mem_flatMap.mp isLine
    exact single value member line isLine

@[simp] theorem single_deeper {code : List Line} : Single (deeper code) ↔ Single code := by
  simp [Single, deeper]

@[simp] theorem single_blank : Single blank := by
  simp [Single, blank]

@[simp] theorem single_ofText (text : Text) : Single (ofText text) := by
  intro line member
  obtain ⟨piece, isPiece, rfl⟩ := List.mem_map.mp member
  exact not_mem_of_mem_lines isPiece

@[simp] theorem single_ofBody (body : Text) : Single (ofBody body) := by
  unfold ofBody
  split <;> simp

@[simp] theorem single_block {head tail : Text} {inner : List Line} :
    Single (block head inner tail) ↔ Single inner := by
  simp [block]

/-- A single line is written without a line feed. -/
theorem newline_not_mem_render {unit : Text} (unitSingle : '\n' ∉ unit) (level : Nat) {line : Line}
    (single : '\n' ∉ line.text) : '\n' ∉ render unit level line := by
  unfold render
  split
  · simp
  · intro member
    rcases List.mem_append.mp member with member | member
    · exact unitSingle (mem_of_mem_repeated member)
    · exact single member

/-- Generated code is put together from its lines. -/
theorem lines_renderAll {unit : Text} (unitSingle : '\n' ∉ unit) (level : Nat) {code : List Line}
    (nonempty : code ≠ []) (single : Single code) :
    lines (renderAll unit level code) = code.map (render unit level) := by
  apply lines_unlines
  · simpa using nonempty
  · intro text member
    obtain ⟨line, isLine, rfl⟩ := List.mem_map.mp member
    exact newline_not_mem_render unitSingle level (single line isLine)

/-- A line that is not empty is written behind its indent. -/
theorem render_of_ne_nil {unit text : Text} (level depth : Nat) (nonempty : text ≠ []) :
    render unit level ⟨depth, text⟩ = repeated (level + depth) unit ++ text := by
  obtain ⟨c, text, rfl⟩ := List.exists_cons_of_ne_nil nonempty
  rfl

end Line

end JasmineConversion
