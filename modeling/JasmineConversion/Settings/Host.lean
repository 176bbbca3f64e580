import JasmineConversion.Files.Encoding
import JasmineConversion.Settings.Value
import JasmineConversion.Text.Integer

/-! # What settings rely on

Settings are checked with a library that takes values for those of a declared type, and read from files
with a library for documents. Neither is part of the program, and so are parameters of it, as is the
room that the machine has for a text. What is known of them is said in laws.
-/

namespace JasmineConversion

variable {ω : Type}

/-- Why a library takes a value for none of a type: the wording, and the name of the problem. -/
structure Refusal where
  wording : String
  problem : String
  deriving DecidableEq

/-- How a library takes values for strings, integers and truth values. -/
structure Coercions (ω : Type) where
  string : SettingValue ω → Except Refusal Codes
  integer : SettingValue ω → Except Refusal Int
  boolean : SettingValue ω → Except Refusal Bool

/-- A value of the declared type is taken as it is. -/
structure Coercions.Lawful (coercions : Coercions ω) : Prop where
  string : ∀ codes, coercions.string (.string codes) = .ok codes
  integer : ∀ number, coercions.integer (.integer number) = .ok number
  boolean : ∀ value, coercions.boolean (.boolean value) = .ok value

/-- What a document holds: nothing, values under names, or something else. -/
inductive Document (ω : Type) where
  | nothing
  | settings (values : SettingValues ω)
  | other

/-- A mistake in a document that its reader has no report for: the kind of the error that arises, and
its wording. -/
structure DocumentMistake where
  kind : String
  wording : String
  deriving DecidableEq

/-- Why a document cannot be read: it is not well-formed, its bytes are no text, or there is a mistake
that the reader has no report for. -/
inductive DocumentFlaw where
  | malformed
  | encoding (error : EncodingError)
  | mistaken (mistake : DocumentMistake)
  deriving DecidableEq

/-- Why there is no room for a text: its length cannot be told, or there is no memory for it. -/
inductive RoomFault where
  | beyondCounting
  | beyondMemory
  deriving DecidableEq

/-- The wording of a fault. -/
def RoomFault.message : RoomFault → String
  | beyondCounting => "cannot fit 'int' into an index-sized integer"
  | beyondMemory => ""

/-- Why a value is not the text of an indent, or its digits cannot be the width of one. -/
inductive IndentFault where
  | notText (type : String)
  | number (fault : IntegerFault)
  | noRoom (fault : RoomFault)
  deriving DecidableEq

/-- The wording of a fault. -/
def IndentFault.message : IndentFault → String
  | notText type => "'" ++ type ++ "' object has no attribute 'lower'"
  | number fault => fault.message
  | noRoom fault => fault.message

/-- What the program relies on: coercions, what a value of another kind is as an indent, the reader of
documents, which is given the bytes of a file to be read as UTF-8, and why there is no room for a text of
some length. -/
structure Host (ω : Type) extends Coercions ω where
  indent : ω → Except IndentFault (SettingValue ω)
  document : List UInt8 → Except DocumentFlaw (Document ω)
  room : Nat → Option RoomFault

/-- Values of the declared types are taken as they are. Of bytes that are a text, a document is read or
reported as not well-formed. -/
structure Host.Lawful (host : Host ω) : Prop where
  coercions : host.toCoercions.Lawful
  text : ∀ content text, Encoding.decode content = .ok text →
    ∀ flaw, host.document content = .error flaw → flaw = .malformed

end JasmineConversion
