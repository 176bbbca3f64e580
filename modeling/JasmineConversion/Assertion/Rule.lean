import JasmineConversion.Source.Scan

/-! # Assertions and their expectations

An assertion function belongs to a namespace and has a rule: how many arguments it needs, and
the expectation that says the same of them.
-/

namespace JasmineConversion

open Text Source

/-- The rule of an assertion function. -/
structure AssertionRule where
  arity : Nat
  expectation : List Text → Except SourceError (Option Text)

namespace AssertionRule

/-- An expectation about a value. -/
def expect (actual matcher expected : Text) : Text :=
  "expect( ".toList ++ actual ++ " ).".toList ++ matcher ++ "( ".toList ++ expected ++
    " );".toList

/-- The rule of a function of no arguments. -/
def nullary (expectation : Text) : AssertionRule :=
  ⟨0, fun _ => .ok (some expectation)⟩

/-- The rule of a function of one argument. -/
def unary (expectation : Text → Text) : AssertionRule :=
  ⟨1, fun arguments => match arguments with
    | first :: _ => .ok (some (expectation first))
    | [] => .ok none⟩

/-- The rule of a function of two arguments. -/
def binary (expectation : Text → Text → Text) : AssertionRule :=
  ⟨2, fun arguments => match arguments with
    | first :: second :: _ => .ok (some (expectation first second))
    | _ => .ok none⟩

/-- The rule of a function that says a value satisfies a test, which is a call of it. -/
def holds (test : Text) : AssertionRule :=
  unary fun value => expect (test ++ "( ".toList ++ value ++ " )".toList) "toBe".toList "true".toList

/-- The rule of a function that compares a value with a constant. -/
def constant (matcher value : String) : AssertionRule :=
  unary fun actual => expect actual matcher.toList value.toList

/-- The rule of a function that compares its second argument with its first. -/
def compare (matcher : String) : AssertionRule :=
  binary fun expected actual => expect actual matcher.toList expected

/-- The expectation that an object has a key. -/
def hasOwnKey (object key : Text) : Text :=
  expect (object ++ ".hasOwnProperty( ".toList ++ key ++ " )".toList) "toBe".toList "true".toList

/-- The rule of a function that says an object has all the keys in an array literal. -/
def ownKeys : AssertionRule :=
  ⟨2, fun arguments => match arguments with
    | keys :: object :: _ =>
      if startsWith ['['] keys && endsWith [']'] keys then do
        let names ← splitArguments (keys.drop 1).dropLast
        return some (names.flatMap (hasOwnKey object))
      else .ok none
    | _ => .ok none⟩

/-- The assertions about single values. -/
def valueRules : List (String × AssertionRule) :=
  [("isTrue", constant "toBe" "true"),
    ("isFalse", constant "toBe" "false"),
    ("isNull", constant "toBe" "null"),
    ("isNotNull", constant "not.toBe" "null"),
    ("isUndefined", holds "_.isUndefined".toList),
    ("isString", holds "_.isString".toList),
    ("isObject", holds "_.isObject".toList),
    ("isArray", holds "_.isArray".toList),
    ("isNaN", holds "isNaN".toList),
    ("isInstanceOf", binary fun type value =>
      expect (value ++ " instanceof ".toList ++ type) "toBe".toList "true".toList),
    ("areSame", compare "toBe"),
    ("areNotSame", compare "not.toBe"),
    ("areEqual", compare "toEqual"),
    ("areNotEqual", compare "not.toEqual"),
    ("fail", nullary (expect "true".toList "toBe".toList "false".toList))]

/-- The assertions about arrays. -/
def arrayRules : List (String × AssertionRule) :=
  [("contains", compare "toContain"),
    ("doesNotContain", compare "not.toContain"),
    ("containsItems", binary fun items array =>
      expect ("_.intersection( ".toList ++ items ++ ", ".toList ++ array ++ " ).length".toList)
        "toBe".toList (items ++ ".length".toList)),
    ("itemsAreSame", compare "toEqual"),
    ("isEmpty", constant "toEqual" "[]")]

/-- The assertions about objects. -/
def objectRules : List (String × AssertionRule) :=
  [("hasKey", binary fun key object => hasOwnKey object key),
    ("hasKeys", ownKeys),
    ("ownsKeys", ownKeys)]

/-- The rules of each namespace. -/
def namespaces : List (String × List (String × AssertionRule)) :=
  [("Assert", valueRules), ("ArrayAssert", arrayRules), ("ObjectAssert", objectRules)]

/-- The entry of a table under a name. -/
def entry? {α : Type} (table : List (String × α)) (name : Text) : Option α :=
  (table.find? fun entry => entry.1.toList == name).map (·.2)

/-- The comment that keeps the message of an assertion. -/
def messageComment : Text :=
  "  // orig YUI Test err msg: ".toList

/-- An expectation with the message that followed the arguments of its assertion. -/
def withMessage (expectation : Text) : (message : Option Text) → Text
  | none => expectation
  | some message => expectation ++ messageComment ++ message

end AssertionRule

/-- The expectation for an assertion call. -/
def expectationFor (space function : Text) (arguments : List Text) : Except SourceError Text :=
  let refuse (fault : AssertionFault) : Except SourceError Text :=
    .error ⟨.assertion space function fault, none⟩
  match AssertionRule.entry? AssertionRule.namespaces space with
  | none => refuse .unknownNamespace
  | some rules =>
    match AssertionRule.entry? rules function with
    | none => refuse .unknownFunction
    | some rule =>
      if arguments.length < rule.arity then
        refuse (.tooFewArguments rule.arity arguments.length)
      else
        match rule.expectation arguments with
        | .error error => .error error
        | .ok none => refuse .keysNotListed
        | .ok (some expectation) =>
          .ok (AssertionRule.withMessage expectation arguments[rule.arity]?)

end JasmineConversion
