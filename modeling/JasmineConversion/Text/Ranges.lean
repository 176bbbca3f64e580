/-! # Sets of code points given by ranges -/

namespace JasmineConversion.Text

/-- Closed ranges of code points. -/
abbrev CodeRanges := List (Nat × Nat)

/-- Whether a code lies in one of the ranges. -/
def CodeRanges.covers (ranges : CodeRanges) (code : Nat) : Bool :=
  ranges.any fun range => decide (range.1 ≤ code) && decide (code ≤ range.2)

/-- Whether a character lies in one of the ranges. -/
def CodeRanges.holds (ranges : CodeRanges) (c : Char) : Bool :=
  ranges.covers c.toNat

/-- The distance of a character from the start of the first range that holds it. -/
def CodeRanges.offset? (ranges : CodeRanges) (c : Char) : Option Nat :=
  (ranges.find? fun range => decide (range.1 ≤ c.toNat) && decide (c.toNat ≤ range.2)).map
    fun range => c.toNat - range.1

end JasmineConversion.Text
