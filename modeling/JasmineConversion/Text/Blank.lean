import JasmineConversion.Text.Ranges

/-! # Blank characters -/

namespace JasmineConversion.Text

/-- The code points that separate words and lines. -/
def blankRanges : CodeRanges :=
  [(0x9, 0xD), (0x1C, 0x20), (0x85, 0x85), (0xA0, 0xA0), (0x1680, 0x1680), (0x2000, 0x200A),
    (0x2028, 0x2029), (0x202F, 0x202F), (0x205F, 0x205F), (0x3000, 0x3000)]

/-- Whether a character is blank: a space, a tab, a line break or another separator. -/
def isBlank (c : Char) : Bool :=
  blankRanges.holds c

/-- Whether a character indents a line. -/
def isIndent (c : Char) : Bool :=
  c == ' ' || c == '\t'

end JasmineConversion.Text
