import JasmineConversion.Text.Basic

/-! # Calls of the inherited hooks

The hooks of a directly constructed test case call those they override. The converted test case
calls them itself, so the first such call is removed, with all that precedes it on its line.
-/

namespace JasmineConversion.Body

open Text

/-- The rest of a text behind a keyword and the white space before it. -/
def spaced? (word text : Text) : Option Text :=
  after? word (trimStart text)

/-- The call of an overridden hook from its last dots on, with its semicolon and the end of the
line. What follows it is given. -/
def superCall? (text : Text) : Option Text := do
  let rest ← after? ".prototype.".toList text
  let rest ← (after? "setUp".toList rest).or (after? "tearDown".toList rest)
  let rest ← after? ".apply(".toList rest
  let rest ← spaced? "this".toList rest
  let rest ← spaced? ",".toList rest
  let rest ← spaced? "arguments".toList rest
  let rest ← spaced? ");".toList rest
  let rest := rest.dropWhile isIndent
  let rest := (after? ['\r'] rest).getD rest
  return (after? ['\n'] rest).getD rest

/-- What follows the first call of an overridden hook on a line. -/
def afterSuperCall? : (line : Text) → Option Text
  | [] => none
  | c :: rest =>
    match superCall? (c :: rest) with
    | some tail => some tail
    | none => if c = '\n' then none else afterSuperCall? rest

/-- Code without the first line up to the end of its call of an overridden hook. `fresh` tells
that a line starts here. -/
def dropSuperCallFrom : (fresh : Bool) → Text → Text
  | _, [] => []
  | fresh, c :: rest =>
    match if fresh then afterSuperCall? (c :: rest) else none with
    | some tail => tail
    | none => c :: dropSuperCallFrom (c == '\n') rest

/-- Code without its first call of an overridden hook. -/
def dropSuperCall (code : Text) : Text :=
  dropSuperCallFrom true code

end JasmineConversion.Body
