import JasmineConversion.Proofs.Suite.Grammar

/-! # What the frames of containers enclose

All that stands around the bodies of functions is read without effect on the braces and the
square brackets around it: names, white space, comments and literals hold none that count.
-/

namespace JasmineConversion

open Text Source Pattern

namespace Bracket

variable {bracket : Bracket} {text : Text} {c : Char}

/-- A character of a dotted name is plain. -/
theorem plain_of_isDotted (dotted : isDotted c = true) : bracket.Plain c := by
  have apart : ∀ d, isDotted d = false → c ≠ d := by
    rintro d other rfl
    simp [dotted] at other
  refine ⟨?_, apart _ (by cases bracket <;> decide), apart _ (by cases bracket <;> decide)⟩
  rw [Bool.eq_false_iff]
  intro delimits
  rcases Mode.isDelimiter_iff.mp delimits with rfl | rfl | rfl <;> exact absurd dotted (by decide)

theorem plain_of_isIdentifierPart (part : isIdentifierPart c = true) : bracket.Plain c :=
  plain_of_isDotted (by simp [isDotted, part])

end Bracket

open JasmineConversion.Bracket

section

variable {bracket : Bracket} {text : Text}

/-- A key leaves the nesting as it was if its name does. -/
theorem Pattern.Key.passes {name : Text} (isKey : Key name text) (passes : bracket.Passes name) :
    bracket.Passes text := by
  obtain ⟨before, behind, beforeBlank, behindBlank, rfl⟩ := isKey
  exact (passes.append (passes_blank beforeBlank)).append
    (.cons (by cases bracket <;> decide) (passes_blank behindBlank))

theorem Pattern.Key.passes_of_parts {name : Text} (isKey : Key name text)
    (parts : ∀ c ∈ name, isIdentifierPart c = true) : bracket.Passes text :=
  isKey.passes (passes_of_plain fun c member => plain_of_isIdentifierPart (parts c member))

/-- A separator leaves the nesting as it was. -/
theorem Separator.passes (apart : Separator text) : bracket.Passes text := by
  cases apart with
  | gap gap => exact passes_gap gap
  | comma first second =>
    exact (passes_gap first).append (.cons (by cases bracket <;> decide) (passes_gap second))

theorem HeaderText.passes {name : Text} (named : HeaderText name text) : bracket.Passes text := by
  obtain ⟨isGap, isKey, isQuote, content, apart⟩ := named
  have lead : bracket.Passes _ := (passes_gap isGap).append (isKey.passes_of_parts (by decide))
  simpa using (lead.append (passes_quoted isQuote content)).append apart.passes

/-- The mark of a suite leaves the nesting as it was. -/
theorem MarkText.passes {rest : Text} (mark : MarkText rest text) : bracket.Passes text := by
  cases mark with
  | quoted isKey isQuote content apart =>
    have key : bracket.Passes _ := isKey.passes_of_parts (by decide)
    simpa using (key.append (passes_quoted isQuote content)).append apart.passes
  | bare isKey _ dotted apart _ =>
    have key : bracket.Passes _ := isKey.passes_of_parts (by decide)
    exact (key.append (passes_of_plain fun c member => plain_of_isDotted (dotted c member))).append
      apart.passes

/-- A mark or none leaves the nesting as it was. -/
theorem MaybeMarked.passes {rest : Text} {marked : Bool} (mark : MaybeMarked rest marked text) :
    bracket.Passes text := by
  cases mark with
  | none => exact passes_nil
  | some written => exact written.passes

/-- The call of a constructor leaves a parenthesis open, and no other bracket. -/
theorem Opening.passes {constructor : Option Text} (opening : Opening constructor text)
    (noRound : bracket ≠ .round) : bracket.Passes text := by
  have paren : bracket.Plain '(' := by
    cases bracket <;> first | exact absurd rfl noRound | decide
  have word : bracket.Passes "new".toList :=
    passes_of_plain (by cases bracket <;> decide)
  cases opening with
  | none => exact passes_nil
  | some isCall =>
    obtain ⟨apart, before, behind, apartBlank, -, beforeBlank, behindBlank, -, dotted, rfl⟩ := isCall
    have name : bracket.Passes _ :=
      passes_of_plain fun c member => plain_of_isDotted (dotted c member)
    exact (((word.append (passes_blank apartBlank)).append name).append
      (passes_blank beforeBlank)).append (.cons paren (passes_blank behindBlank))

/-- The end of a constructor's call leaves the nesting of other brackets as it was. -/
theorem Closing.passes {constructor : Option Text} (closing : Closing constructor text)
    (noRound : bracket ≠ .round) : bracket.Passes text := by
  have paren : bracket.Plain ')' := by
    cases bracket <;> first | exact absurd rfl noRound | decide
  cases closing with
  | none => exact passes_nil
  | some isGap => exact (passes_gap isGap).append (passes_singleton paren)

end

end JasmineConversion
