import JasmineConversion.Text.Codes

/-! # File paths

A path is a list of names behind one or two leading slashes, or none. Repeated slashes and
single dots do not count. Double dots are kept, because they depend on the directories that are
really there.
-/

namespace JasmineConversion

/-- A file path. -/
structure Path where
  slashes : Nat
  parts : List Codes
  deriving DecidableEq

namespace Path

/-- The code of the slash between two names. -/
def slash : Nat := '/'.toNat

/-- The name of the directory itself. -/
def dot : Codes := ['.'.toNat]

/-- The pieces of a string between its slashes. -/
def pieces : Codes → List Codes
  | [] => [[]]
  | c :: rest =>
    if c = slash then [] :: pieces rest
    else match pieces rest with
      | [] => [[c]]
      | first :: more => (c :: first) :: more

/-- Reads a path. Exactly two leading slashes are kept, and more count as one. -/
def parse (codes : Codes) : Path :=
  let slashes := (codes.takeWhile (· == slash)).length
  ⟨if slashes ≤ 2 then slashes else 1,
    (pieces codes).filter fun piece => !piece.isEmpty && piece != dot⟩

/-- The string of a path. The empty path is written as a dot. -/
def codes (path : Path) : Codes :=
  if path.slashes = 0 && path.parts.isEmpty then dot
  else List.replicate path.slashes slash ++ [slash].intercalate path.parts

/-- The last name of a path. -/
def name (path : Path) : Codes :=
  path.parts.getLastD []

/-- A path without its last name. -/
def parent (path : Path) : Path :=
  { path with parts := path.parts.dropLast }

/-- A path taken from another one, unless it starts with a slash. -/
def append (base path : Path) : Path :=
  if path.slashes = 0 then { base with parts := base.parts ++ path.parts } else path

/-- The order of paths, name by name. -/
def namesBefore : List Codes → List Codes → Bool
  | _, [] => false
  | [], _ :: _ => true
  | a :: first, b :: second => a.before b || (a == b && namesBefore first second)

/-- A path as it is shown to users. -/
def display (codes : Codes) : Codes :=
  (parse codes).codes

end Path

end JasmineConversion
