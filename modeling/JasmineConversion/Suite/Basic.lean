import JasmineConversion.Entries
import JasmineConversion.Text.Layout

/-! # Test suites

A suite holds suites and test cases. A test case holds tests, the code that runs before and
after each of them, helper methods, and directives about single tests. A test case may also be
built directly from a named constructor, which brings its own code to run around the tests.
-/

namespace JasmineConversion

open Text

/-- A body of code, and the line of the source where it starts. -/
structure Code where
  body : Text
  line : Int
  deriving DecidableEq

/-- A body of code as captured: it is dedented. -/
def Code.ofRaw (raw : Text) (line : Int) : Code :=
  ⟨dedent raw, line⟩

/-- A body of code with another text in its place. -/
def Code.setBody (code : Code) (raw : Text) : Code :=
  .ofRaw raw code.line

/-- A test. -/
structure Test where
  name : Text
  code : Code
  deriving DecidableEq

/-- A method of a test case that is no test. -/
structure Helper where
  name : Text
  parameters : Text
  code : Code
  deriving DecidableEq

/-- Directives: tests to ignore, and tests that must throw a message. -/
structure Should where
  ignored : List Text := []
  errors : List (Text × Text) := []
  deriving DecidableEq

namespace Should

/-- Whether a test is to be ignored. -/
def isIgnored (should : Should) (test : Text) : Bool :=
  should.ignored.contains test

/-- The message that a test must throw. -/
def expectedError (should : Should) (test : Text) : Option Text :=
  Entries.get? test should.errors

/-- Directives with one more test to ignore. -/
def ignore (should : Should) (test : Text) : Should :=
  if should.isIgnored test then should else { should with ignored := should.ignored ++ [test] }

/-- Directives with a test that must throw a message. -/
def expectError (should : Should) (test message : Text) : Should :=
  { should with errors := Entries.put test message should.errors }

/-- The tests to ignore, in the order of their code points. -/
def ignoredInOrder (should : Should) : List Text :=
  should.ignored.mergeSort fun first second => !before second first

end Should

/-- A test case. -/
structure TestCase where
  name : Text
  constructorName : Option Text := none
  should : Option Should := none
  setUp : Option Code := none
  tearDown : Option Code := none
  tests : List Test := []
  helpers : List Helper := []
  deriving DecidableEq

/-- A suite or a test case. -/
inductive Container where
  | suite (name : Text) (children : List Container)
  | testCase (inner : TestCase)
  deriving Inhabited

namespace Container

/-- The name of a container. -/
def name : Container → Text
  | suite name _ => name
  | testCase inner => inner.name

/-- A container with a name put in front of its own. -/
def qualify (package : Text) : Container → Container
  | suite name children => suite (package ++ ['.'] ++ name) children
  | testCase inner => testCase { inner with name := package ++ ['.'] ++ inner.name }

end Container

end JasmineConversion
