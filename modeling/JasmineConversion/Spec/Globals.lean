import JasmineConversion.Text.Basic

/-! # The list of global names

A comment at the top of a file lists the global names that it uses. The names of the old test
library give way to those of the new one.
-/

namespace JasmineConversion.Globals

open Text

/-- The names that are taken out of the list. -/
def removed : List Text :=
  ["Ext".toList, "Y".toList, "tests".toList, "_".toList]

/-- The names that are added to the list. -/
def added : List Text :=
  ["_".toList, "describe".toList, "beforeEach".toList, "afterEach".toList, "it".toList,
    "expect".toList]

/-- The name that goes to the end of the list. -/
def last : Text :=
  "JsMockito".toList

/-- The list of global names in a comment. -/
def comment (names : List Text) : Text :=
  "/*global ".toList ++ join ", ".toList names ++ " */".toList

/-- The listed text up to the end of the comment, and the text behind it. Both are on one line,
but white space before the end is left out. -/
def listed? : Text → Option (Text × Text)
  | [] => none
  | c :: rest =>
    match after? "*/".toList (trimStart (c :: rest)) with
    | some tail => some ([], tail)
    | none =>
      if c = '\n' then none else (listed? rest).map fun found => (c :: found.1, found.2)

/-- The text before the first list of names, the listed text, and the text behind it. -/
def find? : Text → Option (Text × Text × Text)
  | [] => none
  | c :: rest =>
    match (after? "/*global ".toList (c :: rest)).bind listed? with
    | some (names, tail) => some ([], names, tail)
    | none => (find? rest).map fun found => (c :: found.1, found.2)

/-- The names in a listed text. White space after a comma does not count. `fresh` tells that
nothing else stands between here and the last comma. -/
def splitFrom : (fresh : Bool) → Text → List Text
  | _, [] => [[]]
  | fresh, c :: rest =>
    if c = ',' then [] :: splitFrom true rest
    else if fresh && isBlank c then splitFrom true rest
    else match splitFrom false rest with
      | [] => [[c]]
      | first :: more => (c :: first) :: more

/-- The names in a listed text. -/
def split (listed : Text) : List Text :=
  splitFrom false listed

/-- The names that the new list holds. -/
def update (names : List Text) : List Text :=
  let kept := names.filter fun name => !name.isEmpty && !removed.contains name
  let all := kept ++ added
  if all.contains last then all.erase last ++ [last] else all

/-- A text with its list of global names brought up to date, or with a new one at its top. -/
def convert (text : Text) : Text :=
  match find? text with
  | none => comment added ++ ['\n'] ++ text
  | some (lead, names, tail) => lead ++ comment (update (split names)) ++ tail

end JasmineConversion.Globals
