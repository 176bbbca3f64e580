import JasmineConversion.Assertion.Call
import JasmineConversion.Assertion.Rule
import JasmineConversion.Body.HelperCall
import JasmineConversion.Body.MockWrapper
import JasmineConversion.Body.SelfReference
import JasmineConversion.Body.SuperCall
import JasmineConversion.CommandLine.Arguments
import JasmineConversion.CommandLine.Run
import JasmineConversion.Conversion
import JasmineConversion.Entries
import JasmineConversion.Error
import JasmineConversion.Files.Convert
import JasmineConversion.Files.Encoding
import JasmineConversion.Files.Failure
import JasmineConversion.Files.FileName
import JasmineConversion.Files.Mask
import JasmineConversion.Files.Path
import JasmineConversion.Files.Tree
import JasmineConversion.Host.PlainValue
import JasmineConversion.Host.Standard
import JasmineConversion.Host.Yaml.Binary
import JasmineConversion.Host.Yaml.Character
import JasmineConversion.Host.Yaml.Flaw
import JasmineConversion.Host.Yaml.LetterCase
import JasmineConversion.Host.Yaml.Moment
import JasmineConversion.Host.Yaml.Node
import JasmineConversion.Host.Yaml.Number
import JasmineConversion.Host.Yaml.Scalar
import JasmineConversion.Host.Yaml.SmallLetter
import JasmineConversion.Host.Yaml.Stream
import JasmineConversion.Host.Yaml.Tag
import JasmineConversion.Host.Yaml.Token
import JasmineConversion.Host.Yaml.Value
import JasmineConversion.Literal.Basic
import JasmineConversion.Literal.Binary64
import JasmineConversion.Literal.Reader
import JasmineConversion.Log
import JasmineConversion.Main
import JasmineConversion.Outcome
import JasmineConversion.Proofs.Assertion.Calls
import JasmineConversion.Proofs.Assertion.Liveness
import JasmineConversion.Proofs.Assertion.Locality
import JasmineConversion.Proofs.Assertion.Remaining
import JasmineConversion.Proofs.Assertion.Sites
import JasmineConversion.Proofs.Assertion.Starts
import JasmineConversion.Proofs.Assertion.Statements
import JasmineConversion.Proofs.Assertion.Steady
import JasmineConversion.Proofs.Body.FixtureReferences
import JasmineConversion.Proofs.Body.Leftovers
import JasmineConversion.Proofs.Body.Progress
import JasmineConversion.Proofs.Body.Reports
import JasmineConversion.Proofs.Body.SuperCall
import JasmineConversion.Proofs.Body.Termination
import JasmineConversion.Proofs.Body.Tokens
import JasmineConversion.Proofs.Conversion.AssertionLines
import JasmineConversion.Proofs.Conversion.Directives
import JasmineConversion.Proofs.Conversion.Ending
import JasmineConversion.Proofs.Conversion.Failure
import JasmineConversion.Proofs.Conversion.Remainder
import JasmineConversion.Proofs.Conversion.Surroundings
import JasmineConversion.Proofs.Conversion.Tests
import JasmineConversion.Proofs.Files.Account
import JasmineConversion.Proofs.Files.Bytes
import JasmineConversion.Proofs.Files.Collisions
import JasmineConversion.Proofs.Files.Renaming
import JasmineConversion.Proofs.Files.Reporting
import JasmineConversion.Proofs.Files.Sources
import JasmineConversion.Proofs.Literal.Agreement
import JasmineConversion.Proofs.Literal.Failures
import JasmineConversion.Proofs.Literal.Grammar
import JasmineConversion.Proofs.Literal.Numerals
import JasmineConversion.Proofs.Literal.Reading
import JasmineConversion.Proofs.Literal.Reports
import JasmineConversion.Proofs.Settings.Resolution
import JasmineConversion.Proofs.Settings.Stability
import JasmineConversion.Proofs.Settings.Validation
import JasmineConversion.Proofs.Source.Arguments
import JasmineConversion.Proofs.Source.Comments
import JasmineConversion.Proofs.Source.Enclosure
import JasmineConversion.Proofs.Source.Extent
import JasmineConversion.Proofs.Source.Gap
import JasmineConversion.Proofs.Source.Indents
import JasmineConversion.Proofs.Source.Lexemes
import JasmineConversion.Proofs.Source.LineEnds
import JasmineConversion.Proofs.Source.Listing
import JasmineConversion.Proofs.Source.Matching
import JasmineConversion.Proofs.Source.Passage
import JasmineConversion.Proofs.Source.Reports
import JasmineConversion.Proofs.Source.Segments
import JasmineConversion.Proofs.Source.Stripping
import JasmineConversion.Proofs.Source.Tokens
import JasmineConversion.Proofs.Source.WellFormed
import JasmineConversion.Proofs.Spec.Anchors
import JasmineConversion.Proofs.Spec.Blocks
import JasmineConversion.Proofs.Spec.Fixture
import JasmineConversion.Proofs.Spec.GlobalHeader
import JasmineConversion.Proofs.Spec.GlobalNames
import JasmineConversion.Proofs.Spec.Globals
import JasmineConversion.Proofs.Spec.Indentation
import JasmineConversion.Proofs.Spec.Layout
import JasmineConversion.Proofs.Spec.Quoting
import JasmineConversion.Proofs.Spec.Tests
import JasmineConversion.Proofs.Spec.Unindented
import JasmineConversion.Proofs.Spec.WellFormed
import JasmineConversion.Proofs.Suite.Anchor
import JasmineConversion.Proofs.Suite.BodyPlaces
import JasmineConversion.Proofs.Suite.Captured
import JasmineConversion.Proofs.Suite.CaseReading
import JasmineConversion.Proofs.Suite.ContainerReading
import JasmineConversion.Proofs.Suite.Coverage
import JasmineConversion.Proofs.Suite.Cursor
import JasmineConversion.Proofs.Suite.DirectiveLines
import JasmineConversion.Proofs.Suite.DirectiveNames
import JasmineConversion.Proofs.Suite.Enclosure
import JasmineConversion.Proofs.Suite.Grammar
import JasmineConversion.Proofs.Suite.ItemReading
import JasmineConversion.Proofs.Suite.Lines
import JasmineConversion.Proofs.Suite.MemberChoice
import JasmineConversion.Proofs.Suite.MemberReading
import JasmineConversion.Proofs.Suite.Orderly
import JasmineConversion.Proofs.Suite.OuterReading
import JasmineConversion.Proofs.Suite.Pattern
import JasmineConversion.Proofs.Suite.Progress
import JasmineConversion.Proofs.Suite.Renderable
import JasmineConversion.Proofs.Suite.Rendering
import JasmineConversion.Proofs.Suite.Reports
import JasmineConversion.Proofs.Suite.Room
import JasmineConversion.Proofs.Suite.SelfReference
import JasmineConversion.Proofs.Suite.Sweep
import JasmineConversion.Proofs.Suite.TestNames
import JasmineConversion.Proofs.Suite.Unanchored
import JasmineConversion.Proofs.Suite.Visitor
import JasmineConversion.Proofs.Suite.Written
import JasmineConversion.Proofs.Text.Dedent
import JasmineConversion.Proofs.Text.Lines
import JasmineConversion.Proofs.Text.Replace
import JasmineConversion.Settings.Basic
import JasmineConversion.Settings.File
import JasmineConversion.Settings.Host
import JasmineConversion.Settings.Validation
import JasmineConversion.Settings.Value
import JasmineConversion.Source.Bracket
import JasmineConversion.Source.Reading
import JasmineConversion.Source.Scan
import JasmineConversion.Spec.Globals
import JasmineConversion.Spec.Line
import JasmineConversion.Spec.Writer
import JasmineConversion.Suite.Adaptation
import JasmineConversion.Suite.Basic
import JasmineConversion.Suite.Node
import JasmineConversion.Suite.Pattern
import JasmineConversion.Suite.Reader
import JasmineConversion.Text.Basic
import JasmineConversion.Text.Blank
import JasmineConversion.Text.Codes
import JasmineConversion.Text.Content
import JasmineConversion.Text.Integer
import JasmineConversion.Text.Layout
import JasmineConversion.Text.Position
import JasmineConversion.Text.Printable
import JasmineConversion.Text.Quoted
import JasmineConversion.Text.Ranges
import JasmineConversion.Text.Replace
import JasmineConversion.Text.Template
import JasmineConversion.Text.Word
