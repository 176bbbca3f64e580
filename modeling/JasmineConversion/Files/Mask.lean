import JasmineConversion.Text.Codes

/-! # File masks

A mask names files with wildcards: an asterisk stands for any string, a question mark for any
character, and brackets for one of the characters in them, or for any other one behind an
exclamation mark. A hyphen between two characters in brackets makes a range of them, and a range
that runs backwards is taken out. Matching takes a time proportional to the lengths of mask and
name.
-/

namespace JasmineConversion

/-- A range of characters; a single one is its own first and last. -/
abbrev CodeRange := Nat × Nat

/-- A piece of a mask. -/
inductive Wildcard where
  | anyText
  | anyChar
  | char (c : Nat)
  | oneOf (negated : Bool) (ranges : List CodeRange)

namespace Wildcard

/-! ## Brackets -/

/-- Pieces with one more character in front of the first. -/
def push (c : Nat) : List Codes → List Codes
  | [] => [[c]]
  | first :: more => (c :: first) :: more

/-- The pieces of the contents of brackets between the hyphens that make ranges. The first `least`
characters of a piece are no such hyphens. A hyphen at the end makes no range. -/
def chunks : (least : Nat) → Codes → List Codes
  | _, [] => [[]]
  | least, c :: rest =>
    if c = '-'.toNat && rest.isEmpty then [[c]]
    else match least with
      | 0 => if c = '-'.toNat then [] :: chunks 2 rest else push c (chunks 0 rest)
      | least + 1 => push c (chunks least rest)

/-- Whether the range between two pieces runs backwards. -/
def runsBackwards (first second : Codes) : Bool :=
  match first.getLast?, second.head? with
  | some least, some greatest => greatest < least
  | _, _ => false

/-- Pieces without the ranges that run backwards: their ends are dropped, and what is left of the
two pieces is joined. -/
def dropBackwards : List Codes → List Codes
  | [] => []
  | first :: rest =>
    match dropBackwards rest with
    | [] => [first]
    | second :: more =>
      if runsBackwards first second then (first.dropLast ++ second.drop 1) :: more
      else first :: second :: more

/-- A member of a set in brackets: a character, or the hyphen of a range. -/
inductive Member where
  | char (c : Nat)
  | hyphen
  deriving DecidableEq

/-- The members of a set, with a hyphen between neighbouring pieces. -/
def members : List Codes → List Member
  | [] => []
  | [only] => only.map .char
  | first :: rest => first.map .char ++ .hyphen :: members rest

/-- The ranges of a set. A hyphen that has no character before it stands for itself. -/
def ranges : List Member → List CodeRange
  | [] => []
  | .char first :: .hyphen :: .char last :: rest => (first, last) :: ranges rest
  | .char c :: rest => (c, c) :: ranges rest
  | .hyphen :: rest => ('-'.toNat, '-'.toNat) :: ranges rest

/-- The set that the contents of brackets give. An exclamation mark that comes first, when ranges
that run backwards are gone, negates it. -/
def ofContents (contents : Codes) : Wildcard :=
  let least := if contents.head? = some '!'.toNat then 2 else 1
  let found := members (dropBackwards (chunks least contents))
  if found.head? = some (.char '!'.toNat) then oneOf true (ranges found.tail)
  else oneOf false (ranges found)

/-- A string without a character that it begins with, and this character. -/
def splitFirst (c : Nat) (codes : Codes) : Codes × Codes :=
  if codes.head? = some c then ([c], codes.tail) else ([], codes)

/-- What an opening bracket holds, and the string behind the closing one. A closing bracket right at
the start belongs to the contents. -/
def brackets? (codes : Codes) : Option (Wildcard × Codes) :=
  let (mark, codes) := splitFirst '!'.toNat codes
  let (lead, codes) := splitFirst ']'.toNat codes
  match codes.dropWhile (· != ']'.toNat) with
  | [] => none
  | _ :: rest => some (ofContents (mark ++ lead ++ codes.takeWhile (· != ']'.toNat)), rest)

/-! ## Masks -/

/-- The pieces of a mask. An opening bracket that is never closed stands for itself. Each piece
takes up at least a character, so the length of the mask bounds their number. -/
def parseFrom : (bound : Nat) → Codes → List Wildcard
  | 0, _ => []
  | _, [] => []
  | bound + 1, c :: rest =>
    if c = '*'.toNat then anyText :: parseFrom bound rest
    else if c = '?'.toNat then anyChar :: parseFrom bound rest
    else if c = '['.toNat then
      match brackets? rest with
      | some (set, rest) => set :: parseFrom bound rest
      | none => char c :: parseFrom bound rest
    else char c :: parseFrom bound rest

/-- The pieces of a mask. -/
def parse (mask : Codes) : List Wildcard :=
  parseFrom mask.length mask

/-- Whether a character is in a set of ranges. -/
def holds (ranges : List CodeRange) (c : Nat) : Bool :=
  ranges.any fun range => range.1 ≤ c && c ≤ range.2

/-- Whether a piece stands for a character. -/
def accepts : Wildcard → Nat → Bool
  | anyText, _ => true
  | anyChar, _ => true
  | char expected, c => expected == c
  | oneOf negated set, c => holds set c != negated

/-! ## Matching -/

/-- The ends of a string, the whole of it first. -/
def ends : Codes → List Codes
  | [] => [[]]
  | c :: rest => (c :: rest) :: ends rest

/-- Whether pieces stand for the whole of a string. -/
def matchAll : List Wildcard → Codes → Bool
  | [], name => name.isEmpty
  | anyText :: pieces, name => (ends name).any (matchAll pieces)
  | _ :: _, [] => false
  | piece :: pieces, c :: rest => piece.accepts c && matchAll pieces rest

/-- Answers for the ends of a string, made true where a later one is. -/
def orLater : List Bool → List Bool
  | [] => []
  | answer :: rest =>
    let later := orLater rest
    (answer || later.headD false) :: later

/-- Answers for the ends of a string from those for what follows one character. -/
def afterOne (piece : Wildcard) : Codes → List Bool → List Bool
  | c :: name, _ :: rest => (piece.accepts c && rest.headD false) :: afterOne piece name rest
  | _, _ => [false]

/-- Whether pieces stand for each of the ends of a string. A mask is matched from its end, so that no
end of the string is looked at twice for the same piece. -/
def matchEnds : List Wildcard → Codes → List Bool
  | [], name => (ends name).map List.isEmpty
  | anyText :: pieces, name => orLater (matchEnds pieces name)
  | piece :: pieces, name => afterOne piece name (matchEnds pieces name)

/-- The first of some answers for the ends of a string is that for the string itself. -/
theorem headD_map_ends (answer : Codes → Bool) (name : Codes) :
    ((ends name).map answer).headD false = answer name := by
  cases name <;> simp [ends]

/-- An answer holds for a later end of a string exactly if it holds for one of its ends. -/
theorem orLater_map_ends (answer : Codes → Bool) (name : Codes) :
    orLater ((ends name).map answer) = (ends name).map fun codes => (ends codes).any answer := by
  induction name with
  | nil => simp [ends, orLater]
  | cons c rest ih =>
    simp only [ends, List.map_cons, orLater, ih, headD_map_ends, List.any_cons]

/-- The answers behind one character are those of a piece in front of the others. -/
theorem afterOne_map_ends (piece : Wildcard) (pieces : List Wildcard) (other : piece ≠ anyText)
    (name : Codes) :
    afterOne piece name ((ends name).map (matchAll pieces)) =
      (ends name).map (matchAll (piece :: pieces)) := by
  induction name with
  | nil => cases piece <;> simp_all [ends, afterOne, matchAll]
  | cons c rest ih =>
    simp only [ends, List.map_cons, afterOne, headD_map_ends, ih]
    cases piece <;> simp_all [matchAll]

/-- The answers for the ends of a string are those of matching each of them. -/
theorem matchEnds_eq (pieces : List Wildcard) (name : Codes) :
    matchEnds pieces name = (ends name).map (matchAll pieces) := by
  induction pieces with
  | nil => rfl
  | cons piece pieces ih =>
    cases piece with
    | anyText => simp only [matchEnds, ih, orLater_map_ends]; rfl
    | anyChar => simp only [matchEnds, ih, afterOne_map_ends _ _ (by simp : anyChar ≠ anyText)]
    | char c => simp only [matchEnds, ih, afterOne_map_ends _ _ (by simp : char c ≠ anyText)]
    | oneOf negated set =>
      simp only [matchEnds, ih, afterOne_map_ends _ _ (by simp : oneOf negated set ≠ anyText)]

end Wildcard

namespace Mask

/-- Whether a mask stands for a name. -/
def isMatch (mask name : Codes) : Bool :=
  (Wildcard.matchEnds (Wildcard.parse mask) name).headD false

/-- A mask stands for a name exactly if its pieces stand for the whole of it. -/
theorem isMatch_eq (mask name : Codes) :
    isMatch mask name = Wildcard.matchAll (Wildcard.parse mask) name := by
  simp only [isMatch, Wildcard.matchEnds_eq, Wildcard.headD_map_ends]

/-- The part of a mask before its first asterisk. -/
def lead (mask : Codes) : Codes :=
  mask.takeWhile (· != '*'.toNat)

/-- The part of a mask behind its first asterisk. -/
def tail (mask : Codes) : Codes :=
  (mask.dropWhile (· != '*'.toNat)).drop 1

/-- A mask with a string in place of its first asterisk. -/
def fill (mask stem : Codes) : Codes :=
  if mask.contains '*'.toNat then lead mask ++ stem ++ tail mask else mask

/-- The part of a name between ends of two lengths. -/
def between (front back : Nat) (name : Codes) : Codes :=
  (name.take (name.length - back)).drop front

/-- The name that the output mask gives to a file that the input mask selects: what stands
between the ends of the input mask takes the place of the asterisk. -/
def rename? (input output name : Codes) : Option Codes :=
  let first := (lead input).length
  let last := (tail input).length
  if isMatch input name && first + last ≤ name.length then
    some (fill output (between first last name))
  else none

/-- The wording for a name that the input mask does not select. -/
def mismatchMessage (name mask : Codes) : String :=
  "'" ++ name.shown ++ "' does not match the input mask '" ++ mask.shown ++ "'"

end Mask

end JasmineConversion
