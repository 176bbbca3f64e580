import JasmineConversion.Source.Bracket
import JasmineConversion.Text.Position
import JasmineConversion.Text.Quoted
import JasmineConversion.Text.Template

/-! # Errors in source text

An error has a cause, and a location once it is known in which text it arose. The wording of a
cause is given in one place, and the location is appended to it.
-/

namespace JasmineConversion

open Text

/-- The members that a test case may have only once. -/
inductive SingleMember where
  | setUp
  | tearDown
  | should
  deriving DecidableEq

/-- A single member as messages name it. -/
def SingleMember.label : SingleMember → String
  | setUp => "setUp()"
  | tearDown => "tearDown()"
  | should => "_should block"

/-- The constructs that a scan can start at. -/
inductive ScanStart where
  | bracket
  | literal
  | comment
  deriving DecidableEq

/-- A scan's start as messages name it. -/
def ScanStart.label : ScanStart → String
  | bracket => "an opening brace"
  | literal => "a string or regex delimiter"
  | comment => "a comment"

/-- Text that has no place in the structure of a suite. -/
inductive Misplaced where
  | outerHeader
  | outerClose
  | duplicate (member : SingleMember) (testCase : Text)
  | testCaseMember (testCase : Text)
  | suiteItem (suite : Text)
  | afterMembers (container : Text)
  | constructorClose (constructorName : Text)
  | ttypeValue
  deriving DecidableEq

/-- The wording for misplaced text. -/
def Misplaced.message : Misplaced → String
  | outerHeader => "Expected the outer container's '\x7b name: ... \x7d' header"
  | outerClose => "Expected the closing parenthesis of the outer container"
  | duplicate member testCase =>
      "Duplicate " ++ member.label ++ " in test case '" ++ str testCase ++ "'"
  | testCaseMember testCase => "Unexpected content in test case '" ++ str testCase ++ "'"
  | suiteItem suite => "Expected a suite or test case in the items of '" ++ str suite ++ "'"
  | afterMembers container => "Unexpected content in '" ++ str container ++ "'"
  | constructorClose name => "Expected ')' to close 'new " ++ str name ++ "('"
  | ttypeValue => "Expected a value for 'ttype'"

/-- What keeps an assertion call from having an expectation. -/
inductive AssertionFault where
  | unknownNamespace
  | unknownFunction
  | tooFewArguments (needed given : Nat)
  | keysNotListed
  deriving DecidableEq

/-- The wording for an assertion call without an expectation. -/
def AssertionFault.message (space function : Text) : AssertionFault → String
  | unknownNamespace => "Unknown assertion namespace '" ++ str space ++ "'"
  | unknownFunction =>
      "Unknown function '" ++ str function ++ "' in assertion namespace '" ++ str space ++ "'"
  | tooFewArguments needed given =>
      str space ++ "." ++ str function ++ "() needs at least " ++ toString needed ++
        " argument(s), got " ++ toString given
  | keysNotListed =>
      "Cannot translate " ++ str space ++ "." ++ str function ++
        "(): expected an array literal of keys"

/-- What keeps a text from being a plain literal. -/
inductive LiteralFault where
  | missing
  | textAfter
  | textAfterString
  | notLiteral (text : Text)
  | invalidKey (entry : Text)
  | missingColon (key : Text)
  deriving DecidableEq

/-- The wording for a text that is no plain literal. -/
def LiteralFault.message : LiteralFault → String
  | missing => "Expected a literal value"
  | textAfter => "Unexpected text after literal"
  | textAfterString => "Unexpected text after string literal"
  | notLiteral text => "Only literal values are allowed, found " ++ shown text
  | invalidKey entry => "Invalid object key in " ++ shown entry
  | missingColon key => "Expected ':' after key " ++ shown key

/-- What keeps a directive of a test case from being understood. -/
inductive DirectiveFault where
  | unknown
  | notObject
  | messageNotString (test : Text)
  deriving DecidableEq

/-- The wording for a directive that is not understood. -/
def DirectiveFault.message (directive : Text) : DirectiveFault → String
  | unknown => "Unsupported _should directive '" ++ str directive ++ "'"
  | notObject =>
      "The _should '" ++ str directive ++ "' directive must be an object literal"
  | messageNotString test =>
      "Expected error message for '" ++ str test ++ "' must be a string"

/-- Why a source text cannot be converted. A faulty template is not a matter of the source text and
has no place in it. -/
inductive Cause where
  | noOuterContainer
  | misplaced (what : Misplaced)
  | unbalanced (bracket : Bracket)
  | unterminatedLiteral (delimiter : Char)
  | unterminatedComment
  | invalidStart (expected : ScanStart) (index : Nat) (found : Text)
  | assertion (space function : Text) (fault : AssertionFault)
  | literal (fault : LiteralFault)
  | directive (name : Text) (fault : DirectiveFault)
  | template (error : TemplateError)
  deriving DecidableEq

/-- The wording of a cause. -/
def Cause.message : Cause → String
  | noOuterContainer => "No outer Ext.Test Suite or TestCase found"
  | misplaced what => what.message
  | unbalanced bracket => "No match for " ++ shown [bracket.opener] ++ " before end of input"
  | unterminatedLiteral delimiter =>
      "Literal opened with " ++ shown [delimiter] ++ " is never closed"
  | unterminatedComment => "Block comment is never closed"
  | invalidStart expected index found =>
      "Expected " ++ expected.label ++ " at index " ++ toString index ++ ", found " ++ shown found
  | assertion space function fault => fault.message space function
  | literal fault => fault.message
  | directive name fault => fault.message name
  | template error => error.message

/-- The named subjects that a cause is about. -/
def Cause.subjects : Cause → List (String × Text)
  | assertion space function _ => [("namespace", space), ("function", function)]
  | directive name _ => [("directive", name)]
  | _ => []

/-- What an error shows: a message, the place it points at and the subjects it is about. -/
structure Notice where
  message : String
  line : Option Int := none
  snippet : Option Text := none
  subjects : List (String × Text) := []

namespace Notice

/-- A notice whose empty subjects are left out. -/
def about (notice : Notice) (subjects : List (String × Text)) : Notice :=
  { notice with subjects := subjects.filter fun subject => !subject.2.isEmpty }

/-- A notice moved down by a number of lines. -/
def relocate (notice : Notice) (lines : Int) : Notice :=
  { notice with line := notice.line.map (· + lines) }

/-- The text of a notice: the message, then the line and the snippet that are known. -/
def text (notice : Notice) : String :=
  match notice.line, notice.snippet with
  | none, _ => notice.message
  | some line, none => notice.message ++ " (line " ++ toString line ++ ")"
  | some line, some snippet =>
      if snippet.isEmpty then notice.message ++ " (line " ++ toString line ++ ")"
      else notice.message ++ " (line " ++ toString line ++ ", near " ++ shown snippet ++ ")"

end Notice

/-- A line of a text, and the snippet around a position on it. -/
structure Location where
  line : Int
  snippet : Text
  deriving DecidableEq

/-- The location of an index in a text. -/
def Location.ofIndex (text : Text) (index : Nat) : Location :=
  ⟨lineAt text index, snippetAt text index⟩

/-- An error in a source text. -/
structure SourceError where
  cause : Cause
  location : Option Location := none
  deriving DecidableEq

namespace SourceError

/-- An error that points at an index of a text. -/
def ofIndex (cause : Cause) (text : Text) (index : Nat) : SourceError :=
  ⟨cause, some (.ofIndex text index)⟩

/-- An error that points at an index of a text, whatever it pointed at before. -/
def pointAt (error : SourceError) (text : Text) (index : Nat) : SourceError :=
  { error with location := some (.ofIndex text index) }

/-- An error moved down by a number of lines, for an error found in a piece of a larger text. -/
def relocate (error : SourceError) (lines : Int) : SourceError :=
  { error with
    location := error.location.map fun location => { location with line := location.line + lines } }

/-- What an error shows. -/
def notice (error : SourceError) : Notice :=
  Notice.about
    { message := error.cause.message
      line := error.location.map (·.line)
      snippet := error.location.map (·.snippet) }
    error.cause.subjects

/-- The text of an error. -/
def text (error : SourceError) : String :=
  error.notice.text

end SourceError

end JasmineConversion
