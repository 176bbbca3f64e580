import JasmineConversion.Proofs.Source.WellFormed
import JasmineConversion.Proofs.Spec.Quoting
import JasmineConversion.Proofs.Spec.Tests
import JasmineConversion.Proofs.Spec.Unindented
import JasmineConversion.Suite.Pattern

/-! # Specs are well-formed

A spec for well-formed pieces of code is well-formed. The writer puts the pieces between the brackets
of calls and functions, one line of its own behind each, and what it puts there itself nests
properly. Its indents change nothing, also inside strings and comments of several lines. So the
bracket behind the first `describe` is closed by the last one of the spec.
-/

namespace JasmineConversion

open Text Source

/-! ## Pieces of a spec -/

/-- A text whose quoted form is one closed string. -/
def ClosedInQuotes (text : Text) : Prop :=
  ∃ content, Spec.quote text = '"' :: content ++ ['"'] ∧ LiteralContent '"' content

/-- Well-formed code that may end in a line comment. -/
def OpenEnded (code : Text) : Prop :=
  WellFormed code ∨
    ∃ front comment, code = front ++ '/' :: '/' :: comment ∧ WellFormed front ∧ '\n' ∉ comment

/-- A helper method whose pieces are well-formed. -/
structure Helper.Writable (helper : Helper) : Prop where
  name : ∀ c ∈ helper.name, Pattern.isDotted c = true
  parameters : WellFormed helper.parameters
  body : OpenEnded helper.code.body

/-- A test whose pieces are well-formed, with the message that it must throw if there is one. -/
structure Test.Writable (should : Option Should) (test : Test) : Prop where
  name : ClosedInQuotes test.name
  body : OpenEnded test.code.body
  message : ∀ message, should.bind (·.expectedError test.name) = some message → ClosedInQuotes message

/-- A test case whose pieces are well-formed. -/
structure TestCase.Writable (found : TestCase) : Prop where
  name : ClosedInQuotes found.name
  constructorName : ∀ name ∈ found.constructorName, ∀ c ∈ name, Pattern.isDotted c = true
  setUp : ∀ code ∈ found.setUp, OpenEnded code.body
  tearDown : ∀ code ∈ found.tearDown, OpenEnded code.body
  helpers : ∀ helper ∈ found.helpers, helper.Writable
  tests : ∀ test ∈ found.tests, test.Writable found.should

/-- A suite or a test case whose pieces are well-formed. -/
inductive Container.Writable : Container → Prop
  | suite {name : Text} {children : List Container} (closed : ClosedInQuotes name)
      (writable : ∀ child ∈ children, Writable child) : Writable (.suite name children)
  | testCase {found : TestCase} (writable : found.Writable) : Writable (.testCase found)

/-- A text without backslashes is quoted as one closed string. -/
theorem closedInQuotes_of_not_mem {text : Text} (noEscape : '\\' ∉ text) : ClosedInQuotes text := by
  have content : LiteralContent '\\' text := .of_not_mem noEscape noEscape
  refine ⟨replaceAll Spec.bareQuote text, rfl, (Spec.content_replaceFrom_iff content none).mpr ⟨by simp, ?_⟩⟩
  rintro ⟨front, rest, -, rfl⟩
  simp at noEscape

namespace Bracket

variable {bracket : Bracket} {text inner : Text}

/-- A dotted name leaves the nesting as it was. -/
theorem passes_of_isDotted (dotted : ∀ c ∈ text, Pattern.isDotted c = true) : bracket.Passes text := by
  apply passes_of_plain
  intro c member
  have isPart := dotted c member
  have other : ∀ d, Pattern.isDotted d = false → c ≠ d := by
    rintro d noPart rfl
    rw [isPart] at noPart
    cases noPart
  refine ⟨?_, other _ (by cases bracket <;> decide), other _ (by cases bracket <;> decide)⟩
  rw [Bool.eq_false_iff]
  intro delimits
  rcases Mode.isDelimiter_iff.mp delimits with rfl | rfl | rfl <;> exact absurd isPart (by decide)

theorem passes_quote (closed : ClosedInQuotes text) : bracket.Passes (Spec.quote text) := by
  obtain ⟨content, same, holds⟩ := closed
  rw [same]
  exact passes_quoted rfl holds

/-- The line feed behind a piece of code also ends a comment that the piece ends in. -/
theorem passes_openEnded (holds : OpenEnded text) : bracket.Passes (text ++ ['\n']) := by
  have feed : bracket.Passes ['\n'] := passes_singleton plain_newline
  rcases holds with wellFormed | ⟨front, comment, rfl, wellFormed, oneLine⟩
  · exact (passes_of_encloses (wellFormed.encloses bracket)).append feed
  · have gap : Gap ('/' :: '/' :: comment ++ ['\n']) := .line oneLine .nil
    simpa using (passes_of_encloses (wellFormed.encloses bracket)).append (passes_gap gap)

/-- A function, as the last argument of a call. -/
theorem passes_function (inside : bracket.Passes inner) :
    bracket.Passes ("function() ".toList ++ '{' :: inner ++ ['}', ' ']) := by
  have head : bracket.Passes "function() ".toList :=
    passes_of_encloses (by cases bracket <;> decide)
  simpa using (head.append inside.braces).append (passes_singleton plain_space)

end Bracket

namespace Spec

open Line

variable {bracket : Bracket} {fixture name title : Text} {inner : List Line}

theorem passes_ofText (holds : OpenEnded name) : bracket.Passes (unindented (ofText name)) := by
  rw [unindented_ofText]
  exact Bracket.passes_openEnded holds

/-- The lines of an open-ended body leave the nesting as it was. -/
theorem passes_ofBody {body : Text} (holds : OpenEnded body) :
    bracket.Passes (unindented (ofBody body)) := by
  unfold ofBody
  split
  · exact Bracket.passes_nil
  · exact passes_ofText holds

theorem passes_blank : bracket.Passes (unindented blank) :=
  Bracket.passes_singleton Bracket.plain_newline

/-- Code set apart leaves the nesting as it was if it does. -/
theorem passes_apart (inside : bracket.Passes (unindented inner)) :
    bracket.Passes (unindented (apart inner)) := by
  unfold apart
  rw [unindented_append, unindented_append]
  exact (passes_blank.append inside).append passes_blank

/-- What stands between the brackets of a call with a title and a function. -/
def titledArguments (title : Text) (inner : List Line) : Text :=
  ' ' :: quote title ++ ", ".toList ++
    ("function() ".toList ++ '{' :: ('\n' :: unindented inner) ++ ['}', ' '])

/-- A block with a title is a call of its name, with the arguments in parentheses. -/
theorem unindented_titledBlock (name title : Text) (inner : List Line) :
    unindented (titledBlock name title inner) =
      name ++ ('(' :: titledArguments title inner ++ [')']) ++ [';', '\n'] := by
  simp [titledBlock, titledArguments, callTail]

/-- The arguments of such a call leave the nesting as it was if the title is closed and what is inside
leaves it. -/
theorem passes_titledArguments (closed : ClosedInQuotes title)
    (inside : bracket.Passes (unindented inner)) :
    bracket.Passes (titledArguments title inner) := by
  have comma : bracket.Passes ", ".toList := Bracket.passes_of_encloses (by cases bracket <;> decide)
  exact (((Bracket.passes_quote closed).cons Bracket.plain_space).append comma).append
    (Bracket.passes_function (inside.cons Bracket.plain_newline))

/-- A block with a title leaves the nesting as it was if its parts do. -/
theorem passes_titledBlock (callee : bracket.Passes name) (closed : ClosedInQuotes title)
    (inside : bracket.Passes (unindented inner)) :
    bracket.Passes (unindented (titledBlock name title inner)) := by
  have behind : bracket.Passes [';', '\n'] := Bracket.passes_of_encloses (by cases bracket <;> decide)
  rw [unindented_titledBlock]
  exact (callee.append ((passes_titledArguments closed inside).enclosed .round)).append behind

/-- A block without a title leaves the nesting as it was if its parts do. -/
theorem passes_functionBlock {tail rest : Text} (closes : tail = '}' :: ' ' :: ')' :: rest)
    (callee : bracket.Passes name) (inside : bracket.Passes (unindented inner))
    (behind : bracket.Passes rest) : bracket.Passes (unindented (functionBlock name inner tail)) := by
  have argument := (Bracket.passes_function (inside.cons Bracket.plain_newline)).cons Bracket.plain_space
  have passes := ((callee.append (argument.enclosed .round)).append behind).append
    (Bracket.passes_singleton Bracket.plain_newline)
  simpa [functionBlock, closes, Bracket.opener, Bracket.closer] using passes

/-- A block that is a statement of its own. -/
theorem passes_callBlock (callee : bracket.Passes name) (inside : bracket.Passes (unindented inner)) :
    bracket.Passes (unindented (functionBlock name inner callTail)) :=
  passes_functionBlock rfl callee inside (Bracket.passes_of_encloses (by cases bracket <;> decide))

theorem passes_line (passes : bracket.Passes name) : bracket.Passes (unindented (ofText name)) := by
  rw [unindented_ofText]
  exact passes.append (Bracket.passes_singleton Bracket.plain_newline)

/-- A call of a method of the fixture. -/
theorem passes_fixtureCall {call : Text} (dotted : ∀ c ∈ fixture, Pattern.isDotted c = true)
    (holds : bracket.Encloses call) : bracket.Passes (unindented (ofText (fixture ++ call))) :=
  passes_line ((Bracket.passes_of_isDotted dotted).append (Bracket.passes_of_encloses holds))

/-- The creation of a fixture leaves the nesting as it was. -/
theorem passes_creation {constructorName : Option Text}
    (dotted : ∀ c ∈ fixture, Pattern.isDotted c = true)
    (constructorDotted : ∀ name ∈ constructorName, ∀ c ∈ name, Pattern.isDotted c = true) :
    bracket.Passes (unindented (creation fixture constructorName)) := by
  cases constructorName with
  | none => exact passes_fixtureCall dotted (by cases bracket <;> decide)
  | some constructor =>
    have assigned : bracket.Passes " = new ".toList :=
      Bracket.passes_of_encloses (by cases bracket <;> decide)
    have called : bracket.Passes "();".toList := Bracket.passes_of_encloses (by cases bracket <;> decide)
    have created := (((Bracket.passes_of_isDotted dotted).append assigned).append
      (Bracket.passes_of_isDotted (constructorDotted constructor rfl))).append called
    unfold creation
    rw [unindented_append]
    exact (passes_line created).append (passes_fixtureCall dotted (by cases bracket <;> decide))

/-- The hook before each test leaves the nesting as it was. -/
theorem passes_beforeEach {constructorName : Option Text} {body : Text}
    (dotted : ∀ c ∈ fixture, Pattern.isDotted c = true)
    (constructorDotted : ∀ name ∈ constructorName, ∀ c ∈ name, Pattern.isDotted c = true)
    (holds : OpenEnded body) : bracket.Passes (unindented (beforeEach fixture constructorName body)) := by
  have keyword : bracket.Passes "var ".toList := Bracket.passes_of_encloses (by cases bracket <;> decide)
  have ended : bracket.Passes [';'] := Bracket.passes_of_encloses (by cases bracket <;> decide)
  have callee : bracket.Passes "beforeEach".toList :=
    Bracket.passes_of_encloses (by cases bracket <;> decide)
  have declared := passes_line ((keyword.append (Bracket.passes_of_isDotted dotted)).append ended)
  rw [beforeEach_eq, unindented_append, unindented_append]
  refine (declared.append passes_blank).append (passes_callBlock callee ?_)
  rw [unindented_append]
  refine (passes_creation dotted constructorDotted).append ?_
  split
  · exact Bracket.passes_nil
  · rw [unindented_append]
    exact passes_blank.append (passes_ofText holds)

/-- The hook after each test leaves the nesting as it was. -/
theorem passes_afterEach {constructorName : Option Text} {body : Text}
    (dotted : ∀ c ∈ fixture, Pattern.isDotted c = true) (holds : OpenEnded body) :
    bracket.Passes (unindented (afterEach fixture constructorName body)) := by
  refine passes_callBlock (Bracket.passes_of_encloses (by cases bracket <;> decide)) ?_
  cases constructorName with
  | none => exact passes_ofBody holds
  | some _ =>
    dsimp only
    rw [unindented_append]
    refine Bracket.Passes.append ?_ (passes_fixtureCall dotted (by cases bracket <;> decide))
    split
    · exact Bracket.passes_nil
    · rw [unindented_append]
      exact (passes_ofText holds).append passes_blank

/-- The body of a hook that is written is open-ended, also where there is none. -/
theorem openEnded_of_hookBody? {found : TestCase} {hook : Option Code} {body : Text}
    (holds : ∀ code ∈ hook, OpenEnded code.body) (hasBody : body ∈ hookBody? found hook) :
    OpenEnded body := by
  have empty : OpenEnded [] := .inl ⟨[], .nil, fun _ => .nil⟩
  unfold hookBody? at hasBody
  cases hook with
  | none =>
    split at hasBody <;> cases hasBody
    exact empty
  | some code =>
    split at hasBody <;> cases hasBody <;> exact holds code rfl

/-- A hook of a test case, written if it has a body. -/
theorem passes_hook {found : TestCase} {code : Text → List Line} {hook : Option Code}
    (each : ∀ body, OpenEnded body → bracket.Passes (unindented (code body)))
    (holds : ∀ code ∈ hook, OpenEnded code.body) :
    bracket.Passes (unindented (((hookBody? found hook).map fun body => code body ++ blank).getD [])) := by
  cases hasBody : hookBody? found hook with
  | none => exact Bracket.passes_nil
  | some body =>
    rw [Option.map_some, Option.getD_some, unindented_append]
    exact (each body (openEnded_of_hookBody? holds hasBody)).append passes_blank

/-- The hooks of a writable test case leave the nesting as it was. -/
theorem passes_hooks {found : TestCase} (dotted : ∀ c ∈ fixture, Pattern.isDotted c = true)
    (writable : found.Writable) : bracket.Passes (unindented (hooks fixture found)) := by
  rw [hooks_eq, unindented_append]
  exact (passes_hook (fun _ => passes_beforeEach dotted writable.constructorName) writable.setUp).append
    (passes_hook (fun _ => passes_afterEach dotted) writable.tearDown)

/-- A writable helper method leaves the nesting as it was. -/
theorem passes_helper {found : Helper} (writable : found.Writable) :
    bracket.Passes (unindented (helper found)) := by
  have keyword : bracket.Passes "function ".toList :=
    Bracket.passes_of_encloses (by cases bracket <;> decide)
  have parameters := (Bracket.passes_of_encloses (writable.parameters.encloses bracket)).enclosed .round
  have inside : bracket.Passes (unindented (ofBody found.code.body)) := passes_ofBody writable.body
  have body := ((inside.cons Bracket.plain_newline).braces).cons Bracket.plain_space
  have passes := (((keyword.append (Bracket.passes_of_isDotted writable.name)).append parameters).append
    body).append (Bracket.passes_singleton Bracket.plain_newline)
  simpa [helper, Bracket.opener, Bracket.closer] using passes

/-- A writable test leaves the nesting as it was. -/
theorem passes_test {should : Option Should} {found : Test} (writable : found.Writable should) :
    bracket.Passes (unindented (test should found)) := by
  have body : bracket.Passes (unindented (ofBody found.code.body)) := passes_ofBody writable.body
  have callee : bracket.Passes
      (if should.any (·.isIgnored found.name) then "xit".toList else "it".toList) := by
    split <;> exact Bracket.passes_of_encloses (by cases bracket <;> decide)
  refine passes_titledBlock callee writable.name ?_
  split
  · next message expected =>
    have quoted : bracket.Passes (quote message) :=
      Bracket.passes_quote (writable.message message expected)
    have space : bracket.Passes [' '] := Bracket.passes_singleton Bracket.plain_space
    have thrown : bracket.Passes ".toThrow".toList :=
      Bracket.passes_of_encloses (by cases bracket <;> decide)
    have ended : bracket.Passes [';'] := Bracket.passes_of_encloses (by cases bracket <;> decide)
    have behind := (thrown.append (((space.append quoted).append space).enclosed .round)).append ended
    have closes : "\x7d ).toThrow( ".toList ++ quote message ++ " );".toList = '}' :: ' ' :: ')' ::
        (".toThrow".toList ++ ('(' :: ([' '] ++ quote message ++ [' ']) ++ [')']) ++ [';']) := by simp
    have callee : bracket.Passes "expect".toList :=
      Bracket.passes_of_encloses (by cases bracket <;> decide)
    exact passes_functionBlock closes callee body behind
  · exact body

/-- Code for the values of a list leaves the nesting as it was if it does for each of them. -/
theorem passes_flatMap {α : Type} {values : List α} {code : α → List Line}
    (each : ∀ value ∈ values, bracket.Passes (unindented (code value))) :
    bracket.Passes (unindented (values.flatMap code)) := by
  induction values with
  | nil => exact Bracket.passes_nil
  | cons value values ih =>
    obtain ⟨here, further⟩ := List.forall_mem_cons.mp each
    rw [List.flatMap_cons, unindented_append]
    exact here.append (ih further)

/-- What is inside a writable test case leaves the nesting as it was. -/
theorem passes_inside {found : TestCase} (dotted : ∀ c ∈ fixture, Pattern.isDotted c = true)
    (writable : found.Writable) : bracket.Passes (unindented (inside fixture found)) := by
  have helpers : bracket.Passes
      (unindented (found.helpers.flatMap fun helper => apart (Spec.helper helper))) :=
    passes_flatMap fun helper member => passes_apart (passes_helper (writable.helpers helper member))
  have tests : bracket.Passes
      (unindented (found.tests.flatMap fun test => apart (Spec.test found.should test))) :=
    passes_flatMap fun test member => passes_apart (passes_test (writable.tests test member))
  unfold inside
  rw [unindented_append, unindented_append]
  exact ((passes_hooks dotted writable).append helpers).append tests

/-- A container is written as a call of `describe`, and every bracket encloses its arguments. -/
theorem container_eq_titledBlock {tree : Container} (dotted : ∀ c ∈ fixture, Pattern.isDotted c = true)
    (writable : tree.Writable) :
    ∃ title inner, container fixture tree = titledBlock "describe".toList title inner ∧
      ClosedInQuotes title ∧ ∀ bracket : Bracket, bracket.Passes (unindented inner) := by
  induction writable with
  | @suite name children closed _ ih =>
    refine ⟨name, containers fixture children, by rw [container], closed, fun bracket => ?_⟩
    rw [containers_eq]
    refine passes_flatMap fun child member => passes_apart ?_
    obtain ⟨title, inner, same, closed, inside⟩ := ih child member
    rw [same]
    exact passes_titledBlock (Bracket.passes_of_encloses (by cases bracket <;> decide)) closed
      (inside bracket)
  | @testCase found writable =>
    exact ⟨found.name, inside fixture found, by rw [container]; rfl, writable.name,
      fun bracket => passes_inside dotted writable⟩

/-- The text of a spec: behind an indent, a call of `describe` with arguments that every bracket
encloses. -/
theorem exists_arguments_of_write {style : Style} {tree : Container}
    (unit : ∀ c ∈ style.unit, isIndent c = true)
    (dotted : ∀ c ∈ style.fixture, Pattern.isDotted c = true) (writable : tree.Writable) :
    ∃ indent arguments, write style tree =
        indent ++ ("describe".toList ++ ('(' :: (arguments ++ ['}', ' ']) ++ [')']) ++ [';']) ∧
      (∀ c ∈ indent, isIndent c = true) ∧
      ∀ bracket : Bracket, bracket.Passes (arguments ++ ['}', ' ']) := by
  obtain ⟨title, inner, same, closed, inside⟩ := container_eq_titledBlock dotted writable
  obtain ⟨lead, ends⟩ : ∃ lead, titledArguments title inner = lead ++ ['}', ' '] :=
    ⟨' ' :: quote title ++ ", ".toList ++ ("function() ".toList ++ '{' :: '\n' :: unindented inner), by
      simp [titledArguments]⟩
  have block := unindented_titledBlock "describe".toList title inner
  have nonempty : titledBlock "describe".toList title inner ≠ [] := block_ne_nil _ _ _
  obtain ⟨plain, indent, text, written, laidOut, isBlank, indents⟩ :=
    exists_indents_of_renderAll unit style.level nonempty
  obtain rfl : plain = "describe(".toList ++ (lead ++ "\x7d );".toList) := by
    rw [written, ends] at block
    apply (List.append_left_inj ['\n']).mp
    rw [block]
    simp
  obtain ⟨callee, rest, rfl, isCallee, isRest⟩ := indents.exists_append
  obtain ⟨arguments, tail, rfl, isArguments, isTail⟩ := isRest.exists_append
  rw [isCallee.eq_of_not_mem (by decide), isTail.eq_of_not_mem (by decide)] at laidOut
  refine ⟨indent, arguments, ?_, isBlank, fun bracket => ?_⟩
  · rw [write, same, laidOut]
    simp
  · have passes := passes_titledArguments closed (inside bracket)
    rw [ends] at passes
    exact (Bracket.passes_indents_iff (isArguments.append (.refl _))).mpr passes

/-- Well-formed code in which the bracket behind the first `describe`, at an index, is closed by the
last one, at the end. -/
structure DescribesFrom (output : Text) (start : Nat) : Prop where
  here : startsWith "describe(".toList (output.drop start) = true
  first : ∀ earlier < start, startsWith "describe(".toList (output.drop earlier) = false
  closes : matchBracket output (start + "describe".length) = .ok (output.length - 2)
  ends : endsWith "\x7d );".toList output = true
  wellFormed : WellFormed output

/-- A spec for well-formed pieces of code is well-formed, and its first `describe` reaches to its end. -/
theorem write_describes {style : Style} {tree : Container} (unit : ∀ c ∈ style.unit, isIndent c = true)
    (dotted : ∀ c ∈ style.fixture, Pattern.isDotted c = true) (writable : tree.Writable) :
    ∃ start, DescribesFrom (write style tree) start := by
  obtain ⟨indent, arguments, written, isBlank, passes⟩ := exists_arguments_of_write unit dotted writable
  have behind : (write style tree).drop (indent.length + "describe".length) =
      (Bracket.round.opener :: (arguments ++ ['}', ' ']) ++ [Bracket.round.closer]) ++ [';'] := by
    rw [written, ← List.drop_drop, List.drop_left, List.append_assoc]
    rfl
  have opens : ((write style tree).drop (indent.length + "describe".length)).head? =
      some Bracket.round.opener := by
    rw [behind]
    rfl
  refine ⟨indent.length, ?_, fun earlier less => ?_, ?_, ?_, ?_⟩
  · rw [written, List.drop_left]
    exact startsWith_iff.mpr ⟨_, by simp; rfl⟩
  · obtain ⟨c, more, here⟩ := List.exists_cons_of_length_pos (show 0 < (indent.drop earlier).length by
      rw [List.length_drop]; omega)
    have blank := isBlank c (List.mem_of_mem_drop (here ▸ List.mem_cons_self))
    have other : 'd' ≠ c := by
      rintro rfl
      cases blank
    rw [written, List.drop_append_of_le_length (Nat.le_of_lt less), here]
    simp [startsWith, after?, other]
  · refine (matchBracket_eq_ok_iff opens).mpr ⟨_, .of_drop behind ?_, passes .round |>.encloses⟩
    have width : "describe".length = 8 := rfl
    rw [written]
    simp [width]
    omega
  · exact endsWith_iff.mpr ⟨indent ++ "describe(".toList ++ arguments, by rw [written]; simp⟩
  · refine wellFormed_iff.mpr fun bracket => Bracket.Passes.encloses ?_
    have indented : bracket.Passes indent :=
      Bracket.passes_blank (isBlankText_iff.mpr fun c member => isBlank_of_isIndent (isBlank c member))
    have callee : bracket.Passes "describe".toList :=
      Bracket.passes_of_encloses (by cases bracket <;> decide)
    have ended : bracket.Passes [';'] := Bracket.passes_of_encloses (by cases bracket <;> decide)
    rw [written]
    exact indented.append ((callee.append ((passes bracket).enclosed .round)).append ended)

/-- A suite with a directly constructed test case. Its strings, comments and regular expressions hold
brackets and line feeds, and its last line of code is a comment. -/
def scannerSuite : Container :=
  .suite "tests".toList [.testCase
    { name := "scans \"code\"".toList
      constructorName := some "tests.Scanner".toList
      should := some ⟨["brackets".toList], [("strings".toList, "no \"end\"".toList)]⟩
      setUp := some ⟨"this.text = '\x7b\n(';\n// one \x7d".toList, 3⟩
      tests := [⟨"brackets".toList, ⟨"read( /[)\n]/ ); /* \x7d\n\x7b */".toList, 8⟩⟩,
        ⟨"strings".toList, ⟨"read( \"(\\\n\" );".toList, 12⟩⟩]
      helpers := [⟨"read".toList, "text, /* ) */ more".toList, ⟨"return [text, more];".toList, 15⟩⟩] }]

/-- The suite can be written. -/
theorem scannerSuite_writable : scannerSuite.Writable := by
  refine .suite (closedInQuotes_of_not_mem (by decide)) (List.forall_mem_singleton.mpr (.testCase ?_))
  refine ⟨closedInQuotes_of_not_mem (by decide), by decide, ?_, nofun, ?_, ?_⟩
  · rintro _ ⟨⟩
    exact .inr ⟨"this.text = '\x7b\n(';\n".toList, " one \x7d".toList, rfl,
      wellFormed_iff.mpr (by rintro ⟨⟩ <;> decide), by decide⟩
  · refine List.forall_mem_singleton.mpr ⟨by decide, ?_, .inl ?_⟩ <;>
      exact wellFormed_iff.mpr (by rintro ⟨⟩ <;> decide)
  · refine List.forall_mem_cons.mpr ⟨⟨closedInQuotes_of_not_mem (by decide), .inl ?_, ?_⟩,
      List.forall_mem_singleton.mpr ⟨closedInQuotes_of_not_mem (by decide), .inl ?_, ?_⟩⟩
    · exact wellFormed_iff.mpr (by rintro ⟨⟩ <;> decide)
    · rintro message ⟨⟩
    · exact wellFormed_iff.mpr (by rintro ⟨⟩ <;> decide)
    · rintro message ⟨⟩
      exact closedInQuotes_of_not_mem (by decide)

/-- The spec of the suite describes it from some index on. -/
theorem write_describes_scannerSuite :
    scannerSuite.Writable ∧
      ∃ start, DescribesFrom (write ⟨"  ".toList, 1, "thisSuite".toList⟩ scannerSuite) start :=
  ⟨scannerSuite_writable, write_describes (by decide) (by decide) scannerSuite_writable⟩

end Spec

end JasmineConversion
