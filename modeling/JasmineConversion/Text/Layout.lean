import JasmineConversion.Text.Basic

/-! # Indentation of code

A captured body of code is dedented by the indent of its first line. Blank lines at its edges
are dropped, blank lines inside it become empty, and the indents of the other lines are kept
relative to the first.
-/

namespace JasmineConversion.Text

/-- The texts up to the last one that is not blank. -/
def dropBlankEnd (texts : List Text) : List Text :=
  (texts.reverse.dropWhile isBlankText).reverse

/-- Lines with the blanks at the end of the last one removed. -/
def trimLastEnd : List Text → List Text
  | [] => []
  | [last] => [trimEnd last]
  | first :: rest => first :: trimLastEnd rest

/-- The lines of a text from its first to its last line that is not blank. -/
def innerLines (code : Text) : List Text :=
  trimLastEnd (dropBlankEnd ((lines code).dropWhile isBlankText))

/-- A text without the blank lines at its edges and without blanks at its end. -/
def stripBlankEdges (code : Text) : Text :=
  unlines (innerLines code)

/-- A line without the given indent; a blank line becomes empty. -/
def dedentLine (indent line : Text) : Text :=
  if isBlankText line then []
  else (after? indent line).getD line

/-- A body of code without its blank edges and without the indent of its first line. -/
def dedent (code : Text) : Text :=
  match innerLines code with
  | [] => []
  | first :: rest =>
    let indent := first.takeWhile isIndent
    unlines ((first :: rest).map (dedentLine indent))

/-- A line without one tab or four spaces at its start. -/
def dropOneIndent (line : Text) : Text :=
  match after? ['\t'] line with
  | some rest => rest
  | none => (after? "    ".toList line).getD line

/-- Code with every line moved one indent to the left. -/
def removeOneIndent (code : Text) : Text :=
  unlines ((lines code).map dropOneIndent)

/-- Levels of a run of spaces: a level for each four, and one more for a rest of two or three. -/
def spaceLevels (count : Nat) : Nat :=
  (count + 2) / 4

/-- The indent level of leading white space. Every tab is a level, and every run of spaces
counts by its length; `spaces` is the length of the run read so far. -/
def indentLevelFrom (spaces : Nat) : Text → Nat
  | [] => spaceLevels spaces
  | c :: rest =>
    if c = ' ' then indentLevelFrom (spaces + 1) rest
    else spaceLevels spaces + (if c = '\t' then 1 else 0) + indentLevelFrom 0 rest

/-- The indent level of leading white space. -/
def indentLevel (blank : Text) : Nat :=
  indentLevelFrom 0 blank

end JasmineConversion.Text
