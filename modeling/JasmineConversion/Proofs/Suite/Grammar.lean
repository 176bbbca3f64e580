import JasmineConversion.Proofs.Source.Enclosure
import JasmineConversion.Proofs.Suite.Pattern
import JasmineConversion.Suite.Reader

/-! # Suites as they are written

The text of a suite is described piece by piece: every container is a header, the members of a
test case or the items of a suite, and nothing but white space, comments and single commas
between them. A dialect says what may stand inside functions and containers. Every relation
carries the line on which its text starts, because code keeps the line of its first character.
-/

namespace JasmineConversion

open Text Source Pattern

/-- White space and comments with at most one comma. -/
inductive Separator : Text → Prop
  | gap {text : Text} (gap : Gap text) : Separator text
  | comma {before behind : Text} (first : Gap before) (second : Gap behind) :
      Separator (before ++ ',' :: behind)

/-- A member of a test case. -/
inductive Member where
  | setUp (code : Code)
  | tearDown (code : Code)
  | should (directives : Should)
  | test (test : Test)
  | placeholder
  | helper (helper : Helper)

namespace Member

/-- The code that a member runs before each test. -/
def setUp? : Member → Option Code
  | setUp code => some code
  | _ => none

/-- The code that a member runs after each test. -/
def tearDown? : Member → Option Code
  | tearDown code => some code
  | _ => none

/-- The directives that a member gives. -/
def should? : Member → Option Should
  | should directives => some directives
  | _ => none

/-- The test that a member is. -/
def test? : Member → Option Test
  | test found => some found
  | _ => none

/-- The helper method that a member is. -/
def helper? : Member → Option Helper
  | helper found => some found
  | _ => none

/-- Whether a member has the key that marks a suite. -/
def marks : Member → Bool
  | helper found => found.name == "ttype".toList
  | _ => false

end Member

/-- A test case holds exactly the members of a list, in their order within each kind, and nothing
for members without a name. -/
structure TestCase.Comprises (testCase : TestCase) (members : List Member) : Prop where
  setUp : testCase.setUp.toList = members.filterMap Member.setUp?
  tearDown : testCase.tearDown.toList = members.filterMap Member.tearDown?
  should : testCase.should.toList = members.filterMap Member.should?
  tests : testCase.tests = members.filterMap Member.test?
  helpers : testCase.helpers = members.filterMap Member.helper?

/-- What may stand inside functions and containers. -/
structure Dialect where
  /-- The text between the braces of a function. -/
  body : Text → Prop
  /-- The text between the parentheses of a function. -/
  parameters : Text → Prop
  /-- The text between the braces of directives. -/
  directives : Text → Should → Prop
  /-- The text between the braces of a container. -/
  container : Text → Prop
  /-- The text between the brackets of a list of items. -/
  list : Text → Prop

/-- The line of the first character of a body that is not blank. -/
def bodyLine (line : Nat) (raw : Text) : Nat :=
  line + (raw.takeWhile isBlank).count '\n'

section

variable (dialect : Dialect)

/-- A function with its body. -/
inductive FunctionText (line : Nat) : Text → (parameters : Text) → Code → Prop
  | intro {parameters head raw : Text} (function : FunctionHead parameters head)
      (allowed : dialect.parameters parameters) (body : dialect.body raw) :
      FunctionText line (head ++ '{' :: raw ++ ['}']) parameters
        (.ofRaw raw (bodyLine (line + head.count '\n') raw))

/-- A name that a function without parameters may have and be no hook and no test. -/
structure FreeName (name : Text) : Prop where
  setUp : name ≠ "setUp".toList
  tearDown : name ≠ "tearDown".toList
  test : ∀ test, ¬ TestMark test name

/-- A member of a test case with its key. -/
inductive MemberText (line : Nat) : Text → Member → Prop
  | setUp {key function parameters : Text} {code : Code} (isKey : Key "setUp".toList key)
      (blank : isBlankText parameters = true)
      (written : FunctionText dialect (line + key.count '\n') function parameters code) :
      MemberText line (key ++ function) (.setUp code)
  | tearDown {key function parameters : Text} {code : Code} (isKey : Key "tearDown".toList key)
      (blank : isBlankText parameters = true)
      (written : FunctionText dialect (line + key.count '\n') function parameters code) :
      MemberText line (key ++ function) (.tearDown code)
  | should {key raw : Text} {directives : Should} (isKey : Key "_should".toList key)
      (written : dialect.directives raw directives) :
      MemberText line (key ++ '{' :: raw ++ ['}']) (.should directives)
  | test {name mark key function parameters : Text} {code : Code} (isMark : TestMark name mark)
      (isKey : Key mark key) (blank : isBlankText parameters = true)
      (written : FunctionText dialect (line + key.count '\n') function parameters code) :
      MemberText line (key ++ function) (.test ⟨name, code⟩)
  | quotedTest {quote : Char} {name key function parameters : Text} {code : Code}
      (isQuote : Mode.isQuote quote = true) (content : LiteralContent quote name)
      (nonempty : name ≠ []) (isKey : Key (quote :: name ++ [quote]) key)
      (blank : isBlankText parameters = true)
      (written : FunctionText dialect (line + key.count '\n') function parameters code) :
      MemberText line (key ++ function) (.test ⟨name, code⟩)
  | placeholder {quote : Char} {key function parameters : Text} {code : Code}
      (isQuote : Mode.isQuote quote = true) (isKey : Key [quote, quote] key)
      (written : FunctionText dialect (line + key.count '\n') function parameters code) :
      MemberText line (key ++ function) .placeholder
  | helper {name key function parameters : Text} {code : Code} (identifier : Identifier name)
      (free : isBlankText parameters = true → FreeName name) (isKey : Key name key)
      (written : FunctionText dialect (line + key.count '\n') function parameters code) :
      MemberText line (key ++ function) (.helper ⟨name, parameters, code⟩)

/-- Members with separators behind them. -/
inductive MembersText : (line : Nat) → Text → List Member → Prop
  | nil (line : Nat) : MembersText line [] []
  | cons {line : Nat} {text separator rest : Text} {member : Member} {more : List Member}
      (first : MemberText dialect line text member) (apart : Separator separator)
      (others : MembersText (line + (text ++ separator).count '\n') rest more) :
      MembersText line (text ++ separator ++ rest) (member :: more)

end

/-- The name of a container with its key, behind the opening brace. -/
inductive HeaderText (name : Text) : Text → Prop
  | intro {gap key separator : Text} {quote : Char} (isGap : Gap gap)
      (isKey : Key "name".toList key) (isQuote : Mode.isQuote quote = true)
      (content : LiteralContent quote name) (apart : Separator separator) :
      HeaderText name (gap ++ key ++ quote :: name ++ quote :: separator)

/-- The mark of a suite, in front of a text. A mark without quotes must be set apart. -/
inductive MarkText (rest : Text) : Text → Prop
  | quoted {key value separator : Text} {quote : Char} (isKey : Key "ttype".toList key)
      (isQuote : Mode.isQuote quote = true) (content : LiteralContent quote value)
      (apart : Separator separator) : MarkText rest (key ++ quote :: value ++ quote :: separator)
  | bare {key value separator : Text} (isKey : Key "ttype".toList key) (nonempty : value ≠ [])
      (dotted : ∀ c ∈ value, isDotted c = true) (apart : Separator separator)
      (stops : Stops isDotted (separator ++ rest)) : MarkText rest (key ++ value ++ separator)

/-- A mark in front of a text, or none. -/
inductive MaybeMarked (rest : Text) : (marked : Bool) → Text → Prop
  | none : MaybeMarked rest false []
  | some {mark : Text} (written : MarkText rest mark) : MaybeMarked rest true mark

/-- A mark in front of a text is one in front of what this starts with. -/
theorem MarkText.of_append {rest more mark : Text} (written : MarkText (rest ++ more) mark) :
    MarkText rest mark := by
  cases written with
  | quoted isKey isQuote content apart => exact .quoted isKey isQuote content apart
  | bare isKey nonempty dotted apart stops =>
    refine .bare isKey nonempty dotted apart ?_
    rw [← List.append_assoc] at stops
    exact stops.of_append

/-- A mark in front of a text is one with more behind the text. -/
theorem MarkText.append {rest more mark : Text} (written : MarkText rest mark)
    (stops : Stops isDotted more) : MarkText (rest ++ more) mark := by
  cases written with
  | quoted isKey isQuote content apart => exact .quoted isKey isQuote content apart
  | bare isKey nonempty dotted apart ends =>
    refine .bare isKey nonempty dotted apart ?_
    rw [← List.append_assoc]
    exact ends.append stops

/-- With or without a mark, what is behind may be shortened. -/
theorem MaybeMarked.of_append {rest more mark : Text} {marked : Bool}
    (marking : MaybeMarked (rest ++ more) marked mark) : MaybeMarked rest marked mark := by
  cases marking with
  | none => exact .none
  | some written => exact .some written.of_append

/-- With or without a mark, what is behind may be longer, unless that lengthens the name. -/
theorem MaybeMarked.append {rest more mark : Text} {marked : Bool}
    (marking : MaybeMarked rest marked mark) (stops : Stops isDotted more) :
    MaybeMarked (rest ++ more) marked mark := by
  cases marking with
  | none => exact .none
  | some written => exact .some (written.append stops)

/-- The text in front of the braces of a container: the call of a constructor, or nothing. -/
inductive Opening : (constructor : Option Text) → Text → Prop
  | none : Opening none []
  | some {constructor call : Text} (isCall : Call constructor call) : Opening (some constructor) call

/-- The text behind the braces of a container: the end of a constructor's call, or nothing. -/
inductive Closing : (constructor : Option Text) → Text → Prop
  | none : Closing none []
  | some {constructor gap : Text} (isGap : Gap gap) : Closing (some constructor) (gap ++ [')'])

section

variable (dialect : Dialect)

/-- A test case in its braces, with its members. -/
inductive CaseText (line : Nat) (name : Text) (marked : Bool) : Text → List Member → Prop
  | intro {header mark text : Text} {members : List Member} (named : HeaderText name header)
      (marking : MaybeMarked text marked mark)
      (written : MembersText dialect (line + (header ++ mark).count '\n') text members)
      (unmarked : marked = false → ¬ members.head?.any Member.marks = true)
      (inside : dialect.container (header ++ mark ++ text)) :
      CaseText line name marked ('{' :: header ++ mark ++ text ++ ['}']) members

/-- The text of a suite in its braces, around its items. -/
inductive SuiteFrame (name : Text) (marked : Bool) (items : Text) : (before behind : Text) → Prop
  | intro {header mark key gap separator : Text} (named : HeaderText name header)
      (isKey : Key "items".toList key) (isGap : Gap gap) (apart : Separator separator)
      (marking : MaybeMarked (key ++ '[' :: gap ++ items ++ ']' :: separator) marked mark)
      (listed : dialect.list (gap ++ items))
      (inside : dialect.container
        (header ++ mark ++ key ++ '[' :: gap ++ items ++ ']' :: separator)) :
      SuiteFrame name marked items ('{' :: header ++ mark ++ key ++ '[' :: gap)
        (']' :: separator ++ ['}'])

/-- The items of a suite with separators behind them. -/
inductive ItemsText : (line : Nat) → Text → List Container → Prop
  | nil (line : Nat) : ItemsText line [] []
  | testCase {line : Nat} {before text behind separator rest name : Text}
      {constructor : Option Text} {members : List Member} {inner : TestCase}
      {more : List Container} (opening : Opening constructor before)
      (closing : Closing constructor behind)
      (noSuite : ¬ constructor.any SuiteReader.suiteClasses.contains = true)
      (written : CaseText dialect (line + before.count '\n') name false text members)
      (comprises : inner.Comprises members) (named : inner.name = name)
      (constructed : inner.constructorName =
        constructor.filter fun name => !SuiteReader.caseClasses.contains name)
      (apart : Separator separator)
      (others : ItemsText (line + (before ++ text ++ behind ++ separator).count '\n') rest more) :
      ItemsText line (before ++ text ++ behind ++ separator ++ rest) (.testCase inner :: more)
  | suite {line : Nat} {before front items back behind separator rest name : Text}
      {constructor : Option Text} {children more : List Container}
      (opening : Opening constructor before) (closing : Closing constructor behind)
      (ofSuite : ¬ (constructor.any fun name => !SuiteReader.suiteClasses.contains name) = true)
      (frame : SuiteFrame dialect name true items front back)
      (written : ItemsText (line + (before ++ front).count '\n') items children)
      (apart : Separator separator)
      (others : ItemsText
        (line + (before ++ front ++ items ++ back ++ behind ++ separator).count '\n') rest more) :
      ItemsText line (before ++ front ++ items ++ back ++ behind ++ separator ++ rest)
        (.suite name children :: more)
  | bareSuite {line : Nat} {before header mark behind separator rest name : Text}
      {constructor : Option Text} {more : List Container}
      (opening : Opening constructor before) (closing : Closing constructor behind)
      (ofSuite : ¬ (constructor.any fun name => !SuiteReader.suiteClasses.contains name) = true)
      (named : HeaderText name header) (marking : MarkText [] mark)
      (inside : dialect.container (header ++ mark)) (apart : Separator separator)
      (others : ItemsText
        (line + (before ++ '{' :: header ++ mark ++ '}' :: behind ++ separator).count '\n')
        rest more) :
      ItemsText line (before ++ '{' :: header ++ mark ++ '}' :: behind ++ separator ++ rest)
        (.suite name [] :: more)

/-- The outer container in its braces. Only an unmarked test case may be `declared` as one. -/
inductive ContainerText (line : Nat) (declared : Bool) : Text → Container → Prop
  | testCase {name text : Text} {marked : Bool} {members : List Member} {inner : TestCase}
      (written : CaseText dialect line name marked text members)
      (unmarked : declared = true → marked = false) (comprises : inner.Comprises members)
      (named : inner.name = name) (unconstructed : inner.constructorName = none) :
      ContainerText line declared text (.testCase inner)
  | suite {name front items back : Text} {marked : Bool} {children : List Container}
      (undeclared : declared = false) (frame : SuiteFrame dialect name marked items front back)
      (written : ItemsText dialect (line + front.count '\n') items children) :
      ContainerText line declared (front ++ items ++ back) (.suite name children)

end

end JasmineConversion
