import JasmineConversion.Text.Basic

/-! # Positions in a text

A position is an index into the text. Messages report its line, counted from one, and a
snippet of the text around it.
-/

namespace JasmineConversion.Text

/-- The line of an index; an index past the end is on the last line. -/
def lineAt (text : Text) (index : Nat) : Nat :=
  (text.take index).count '\n' + 1

/-- How many characters a snippet shows on each side of its position. -/
def snippetRadius : Nat := 20

/-- The bound that an end position gives in a text: counted from the end of the text when it
is negative. -/
def boundOf (text : Text) (stop : Int) : Nat :=
  if stop < 0 then (text.length + stop).toNat else stop.toNat

/-- The text within `radius` characters of a position. With a negative radius the start lies behind
the position and the end before it. -/
def window (text : Text) (index radius : Int) : Text :=
  slice text (index - radius).toNat (boundOf text (index + radius))

/-- The snippet that messages show for a position. -/
def snippetAt (text : Text) (index : Nat) : Text :=
  window text index snippetRadius

end JasmineConversion.Text
