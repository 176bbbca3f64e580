/-! # Brackets -/

namespace JasmineConversion

/-- The three kinds of brackets in source code. -/
inductive Bracket where
  | brace
  | square
  | round
  deriving DecidableEq

namespace Bracket

/-- The character that opens a bracket. -/
def opener : Bracket → Char
  | brace => '{'
  | square => '['
  | round => '('

/-- The character that closes a bracket. -/
def closer : Bracket → Char
  | brace => '}'
  | square => ']'
  | round => ')'

/-- The bracket that a character opens. -/
def ofOpener? (c : Char) : Option Bracket :=
  if c = '{' then some brace
  else if c = '[' then some square
  else if c = '(' then some round
  else none

end Bracket

end JasmineConversion
