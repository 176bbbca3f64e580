import JasmineConversion.Text.Basic

/-! # Lines of generated code

Generated code is a list of lines, each with its depth. The indent is added when the lines are
put together. An empty line gets none.
-/

namespace JasmineConversion

open Text

/-- A line of generated code, and how many units it is indented relative to the others. -/
structure Line where
  depth : Nat
  text : Text
  deriving DecidableEq

namespace Line

/-- The lines of a text, at depth zero. -/
def ofText (text : Text) : List Line :=
  (lines text).map fun line => ⟨0, line⟩

/-- The lines of a body; an empty body has none. -/
def ofBody (body : Text) : List Line :=
  if body.isEmpty then [] else ofText body

/-- A line that separates others. -/
def blank : List Line :=
  [⟨0, []⟩]

/-- Lines one unit deeper. -/
def deeper (lines : List Line) : List Line :=
  lines.map fun line => { line with depth := line.depth + 1 }

/-- Lines between a head and a tail, one unit deeper than these. -/
def block (head : Text) (inner : List Line) (tail : Text) : List Line :=
  ofText head ++ deeper inner ++ ofText tail

/-- The text of a line, in code that starts at an indent level. A level below zero has no
indent. -/
def render (unit : Text) (level : Int) (line : Line) : Text :=
  if line.text.isEmpty then [] else repeated (level + line.depth).toNat unit ++ line.text

/-- The text of lines, in code that starts at an indent level. -/
def renderAll (unit : Text) (level : Int) (code : List Line) : Text :=
  unlines (code.map (render unit level))

end Line

end JasmineConversion
