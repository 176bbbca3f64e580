import JasmineConversion.Proofs.Body.Tokens
import JasmineConversion.Proofs.Suite.Captured
import JasmineConversion.Proofs.Text.Dedent

/-! # Lines of bodies

References are rewritten line by line, and a captured body keeps the lines of the source but for indents and blanks at
its end. A place in a body with rewritten references is thus on a line of the source, some lines behind that of the
body.
-/

namespace JasmineConversion

open Text Body Pattern

/-- Calls of helper methods are shortened line by line. -/
theorem Body.lines_shortened {names : List Text} (named : ∀ name ∈ names, Identifier name) (text : Text) :
    lines (shortened names text) = (lines text).map (shortened names) := by
  induction names generalizing text with
  | nil => exact (List.map_id _).symm
  | cons name names ih =>
    obtain ⟨here, further⟩ := List.forall_mem_cons.mp named
    change lines (shortened names (replaceAll (toHelper name) text)) = _
    rw [ih further, (toHelper_dotted here).lines_replaceAll, List.map_map]
    rfl

/-- A line of a body with rewritten references is what the line of the body is rewritten to. -/
theorem BodyStyle.exists_line_of_hookBody {style : BodyStyle} {names : List Text} {body adapted line : Text}
    {number : Nat} (fixture : Identifier style.fixture) (named : ∀ name ∈ names, Identifier name)
    (adapts : style.hookBody names body = .ok adapted) (here : (lines adapted)[number]? = some line) :
    ∃ own, (lines body)[number]? = some own ∧ style.hookBody names own = .ok line := by
  rw [hookBody_eq fixture named] at adapts
  obtain rfl := Except.ok.inj adapts
  rw [(toFixture_dotted fixture).lines_replaceAll, lines_shortened named, List.map_map, List.getElem?_map] at here
  obtain ⟨own, found, rfl⟩ := Option.map_eq_some_iff.mp here
  exact ⟨own, found, hookBody_eq fixture named own⟩

/-- A line of captured code is part of a line of the source. -/
theorem CodeIn.exists_line {source line : Text} {code : Code} {number : Nat} (codeIn : CodeIn 1 source code)
    (here : (lines code.body)[number]? = some line) :
    ∃ (index : Nat) (whole : Text), code.line + number = (index : Int) + 1 ∧ (lines source)[index]? = some whole ∧
      line <:+: whole := by
  obtain @⟨before, raw, behind, rfl⟩ := codeIn
  obtain ⟨own, found, part⟩ := exists_line_of_dedent here
  obtain ⟨whole, found, around⟩ := exists_line_of_infix (before ++ ['{']) ('}' :: behind) found
  have regrouped : before ++ ['{'] ++ raw ++ '}' :: behind = before ++ '{' :: raw ++ '}' :: behind := by simp
  rw [regrouped] at found
  refine ⟨_, whole, ?_, found, part.trans around⟩
  simp only [Code.ofRaw, bodyLine, List.count_append]
  have brace : ['{'].count '\n' = 0 := rfl
  omega

/-- A place in a body with rewritten references, given by the text in front of it, stands on the line of the source
behind so many others. The line of the body there is what a part of this line is rewritten to. -/
structure PlacedCode.StandsOn (placed : PlacedCode) (style : BodyStyle) (source adapted front : Text) (index : Nat) :
    Prop where
  numbered : placed.code.line + front.count '\n' = (index : Int) + 1
  comes : ∃ line own whole, (lines adapted)[front.count '\n']? = some line ∧
    style.hookBody placed.names own = .ok line ∧ own <:+: whole ∧ (lines source)[index]? = some whole

/-- A front of an adapted body stands on a line of the source. -/
theorem PlacedCode.exists_standsOn {placed : PlacedCode} {style : BodyStyle} {source adapted front : Text}
    (fixture : Identifier style.fixture) (named : ∀ name ∈ placed.names, Identifier name)
    (codeIn : CodeIn 1 source placed.code) (adapts : style.hookBody placed.names placed.code.body = .ok adapted)
    (here : front <+: adapted) : ∃ index, placed.StandsOn style source adapted front index := by
  obtain ⟨rest, rfl⟩ := here
  obtain ⟨line, found⟩ := exists_line_of_place front rest
  obtain ⟨own, inBody, rewritten⟩ := BodyStyle.exists_line_of_hookBody fixture named adapts found
  obtain ⟨index, whole, numbered, inSource, part⟩ := codeIn.exists_line inBody
  exact ⟨index, numbered, line, own, whole, found, rewritten, part, inSource⟩

end JasmineConversion
