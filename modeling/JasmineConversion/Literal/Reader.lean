import JasmineConversion.Literal.Basic
import JasmineConversion.Source.Scan

/-! # Reading plain literals

A literal is an object, an array, a quoted string, a boolean, `null` or a number. It is read
from the text without comments. Whatever stands inside an object or an array is reported at the
start of what the brackets hold.
-/

namespace JasmineConversion.Literal

open Text Source

/-- The key at the front of an object's entry, and the text after it. -/
def splitKey (whole entry : Text) (offset : Nat) : Except SourceError (Text × Text) := do
  let (key, rest) ← match entry with
    | [] => .error (.ofIndex (.literal (.invalidKey entry)) whole offset)
    | c :: _ =>
      if Mode.isQuote c then do
        let close ← matchLiteral entry 0
        pure (slice entry 1 close, entry.drop (close + 1))
      else if isIdentifierStart c then
        pure (entry.takeWhile isIdentifierPart, entry.dropWhile isIdentifierPart)
      else .error (.ofIndex (.literal (.invalidKey entry)) whole offset)
  match trimStart rest with
  | ':' :: value => .ok (key, value)
  | _ => .error (.ofIndex (.literal (.missingColon key)) whole offset)

/-- The value of a text without brackets and quotes. -/
def ofWord? (word : Text) : Option Literal :=
  if word = "true".toList then some (boolean true)
  else if word = "false".toList then some (boolean false)
  else if word = "null".toList then some null
  else (Numeral.read? word).map ofNumeral

/-- Reads the value that `source` holds. Errors point into `whole`, where `source` is taken to
start at `offset`. Every nested value is shorter, so its length bounds the depth. -/
def readFrom (whole : Text) : (depth : Nat) → (source : Text) → (offset : Nat) →
    Except SourceError Literal
  | 0, _, offset => .error (.ofIndex (.literal .missing) whole offset)
  | depth + 1, source, offset => do
    let trimmed := trim source
    let offset := offset + (source.length - (trimStart source).length)
    match trimmed with
    | [] => .error (.ofIndex (.literal .missing) whole offset)
    | first :: _ =>
      if first == '{' || first == '[' then
        let close ← matchBracket trimmed 0
        if !isBlankText (trimmed.drop (close + 1)) then
          .error (.ofIndex (.literal .textAfter) whole (offset + close + 1))
        else
          let items ← splitArguments (slice trimmed 1 close)
          if first == '[' then
            return array (← items.mapM fun item => readFrom whole depth item (offset + 1))
          else
            let entries ← items.foldlM (fun entries item => do
              let (key, value) ← splitKey whole item (offset + 1)
              return Entries.put key (← readFrom whole depth value (offset + 1)) entries) []
            return object entries
      else if Mode.isQuote first then
        let close ← matchLiteral trimmed 0
        if close + 1 ≠ trimmed.length then
          .error (.ofIndex (.literal .textAfterString) whole (offset + close + 1))
        else return string (slice trimmed 1 close)
      else match ofWord? trimmed with
        | some value => .ok value
        | none => .error (.ofIndex (.literal (.notLiteral trimmed)) whole offset)

/-- Reads the one literal that a text holds. -/
def read (text : Text) : Except SourceError Literal := do
  let plain ← stripComments text
  readFrom plain (plain.length + 1) plain 0

end JasmineConversion.Literal
