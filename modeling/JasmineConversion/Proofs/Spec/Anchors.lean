import JasmineConversion.Proofs.Spec.GlobalNames
import JasmineConversion.Proofs.Spec.Tests
import JasmineConversion.Proofs.Spec.Unindented
import JasmineConversion.Proofs.Suite.Unanchored

/-! # Specs without an anchor

What the writer puts around the pieces of a suite neither opens an outer container nor takes part in
an opening: each piece stands between characters that are foreign to anchors. So a spec opens an outer
container exactly where one of its pieces does: a body at the start of any line, and a name, a message
or a list of parameters behind a line feed.
-/

namespace JasmineConversion

open Text Pattern

/-! ## Pieces of a spec -/

/-- A helper method whose head and body open no outer container. -/
structure Helper.Unanchored (helper : Helper) : Prop where
  head : Pattern.Unanchored false (helper.name ++ '(' :: helper.parameters)
  body : Pattern.Unanchored true helper.code.body

/-- A test whose name and body open no outer container, nor does the message that it must throw. -/
structure Test.Unanchored (should : Option Should) (test : Test) : Prop where
  name : Pattern.Unanchored false test.name
  body : Pattern.Unanchored true test.code.body
  message : ∀ message ∈ should.bind (·.expectedError test.name), Pattern.Unanchored false message

/-- A test case none of whose pieces opens an outer container. -/
structure TestCase.Unanchored (found : TestCase) : Prop where
  name : Pattern.Unanchored false found.name
  constructorName : ∀ name ∈ found.constructorName, Pattern.Unanchored false name
  setUp : ∀ code ∈ found.setUp, Pattern.Unanchored true code.body
  tearDown : ∀ code ∈ found.tearDown, Pattern.Unanchored true code.body
  helpers : ∀ helper ∈ found.helpers, helper.Unanchored
  tests : ∀ test ∈ found.tests, test.Unanchored found.should

/-- A suite or a test case none of whose pieces opens an outer container. -/
inductive Container.Unanchored : Container → Prop
  | suite {name : Text} {children : List Container} (title : Pattern.Unanchored false name)
      (inside : ∀ child ∈ children, Unanchored child) : Unanchored (.suite name children)
  | testCase {found : TestCase} (inside : found.Unanchored) : Unanchored (.testCase found)

/-- A suite has no anchor if its name and its children have none. -/
theorem Container.unanchored_suite_iff {name : Text} {children : List Container} :
    (suite name children).Unanchored ↔
      Pattern.Unanchored false name ∧ ∀ child ∈ children, child.Unanchored :=
  ⟨fun | .suite title inside => ⟨title, inside⟩, fun ⟨title, inside⟩ => .suite title inside⟩

theorem Container.unanchored_testCase_iff {found : TestCase} :
    (testCase found).Unanchored ↔ found.Unanchored :=
  ⟨fun | .testCase inside => inside, .testCase⟩

/-! ## Code -/

namespace Line

variable {code more : List Line} {free free' : Prop}

/-- Code opens no outer container exactly if `free` holds, whatever lines follow it. -/
def ClearIff (code : List Line) (free : Prop) : Prop :=
  ∀ rest, Unanchored true (unindented code ++ rest) ↔ free ∧ Unanchored true rest

/-- Code opens no outer container exactly if `free` holds, where a closing brace follows it. -/
def ClearInsideIff (code : List Line) (free : Prop) : Prop :=
  ∀ rest, Unanchored true (unindented code ++ '}' :: rest) ↔ free ∧ Unanchored false rest

namespace ClearIff

theorem inside (clear : ClearIff code free) : ClearInsideIff code free := by
  intro rest
  rw [clear, unanchored_foreign_cons (by decide)]

theorem congr (clear : ClearIff code free) (same : free ↔ free') : ClearIff code free' := by
  intro rest
  rw [clear, same]

theorem nil : ClearIff [] True := by
  simp [ClearIff]

theorem blank : ClearIff Line.blank True := by
  simp [ClearIff]

/-- Two pieces of code are clear if each is. -/
theorem append (first : ClearIff code free) (second : ClearIff more free') :
    ClearIff (code ++ more) (free ∧ free') := by
  intro rest
  rw [unindented_append, List.append_assoc, first, second, and_assoc]

/-- Code for the values of a list is clear if it is for each of them. -/
theorem flatMap {α : Type} {values : List α} {code : α → List Line} {free : α → Prop}
    (each : ∀ value ∈ values, ClearIff (code value) (free value)) :
    ClearIff (values.flatMap code) (∀ value ∈ values, free value) := by
  induction values with
  | nil => exact nil.congr (by simp)
  | cons value values ih =>
    obtain ⟨here, further⟩ := List.forall_mem_cons.mp each
    rw [List.flatMap_cons]
    exact (here.append (ih further)).congr (by simp)

/-- A line of the writer's own: a foreign character stands in it before any brace. -/
theorem line {text : Text} (front : Text) (c : Char) (tail : Text) (split : text = front ++ c :: tail)
    (closed : '{' ∉ front) (foreign : isForeign c = true) (single : '\n' ∉ tail) :
    ClearIff (ofText text) True := by
  intro rest
  have laidOut : unindented (ofText text) ++ rest = front ++ c :: (tail ++ '\n' :: rest) := by
    simp [split]
  rw [laidOut, unanchored_foreign closed foreign, unanchored_append_of_not_mem single]
  simp

end ClearIff

namespace ClearInsideIff

theorem congr (clear : ClearInsideIff code free) (same : free ↔ free') : ClearInsideIff code free' := by
  intro rest
  rw [clear, same]

/-- Code in front that is clear may be added. -/
theorem append (first : ClearIff code free) (second : ClearInsideIff more free') :
    ClearInsideIff (code ++ more) (free ∧ free') := by
  intro rest
  rw [unindented_append, List.append_assoc, first, second, and_assoc]

theorem ofText (body : Text) : ClearInsideIff (Line.ofText body) (Unanchored true body) := by
  intro rest
  rw [unindented_ofText]
  exact unanchored_across body (by decide) (by decide) rest

/-- The lines of a body are clear if the body is, also if there are none. -/
theorem ofBody (body : Text) : ClearInsideIff (Line.ofBody body) (Unanchored true body) := by
  unfold Line.ofBody
  split
  · next empty =>
    rw [List.isEmpty_iff.mp empty]
    exact ClearIff.nil.inside.congr (by simp)
  · exact ofText body

end ClearInsideIff

end Line

namespace Spec

open Line

variable {fixture name title : Text} {inner : List Line} {free free' : Prop}

/-- The quotes that are escaped play no part in anchors, nor do their escapes. -/
theorem unanchored_escaped (title : Text) (fresh : Bool) :
    Unanchored fresh (replaceAll bareQuote title) ↔ Unanchored fresh title := by
  suffices behind : ∀ front previous, Unanchored fresh (front ++ replaceFrom bareQuote 0 previous title) ↔
      Unanchored fresh (front ++ title) from behind [] none
  induction title generalizing fresh with
  | nil => exact fun front previous => .rfl
  | cons c title ih =>
    intro front previous
    cases found : bareQuote previous (c :: title) with
    | none =>
      have moved := ih fresh (front ++ [c]) (some c)
      simpa [replaceFrom, found] using moved
    | some piece =>
      unfold bareQuote at found
      split at found
      · next bare =>
        obtain ⟨rfl, -⟩ : c = '"' ∧ previous ≠ some '\\' := by simpa using bare
        cases found
        have further := ih false [] (some '"')
        simp only [List.nil_append] at further
        simp only [replaceFrom, bareQuote, bare, if_true, List.cons_append, List.nil_append, Nat.sub_self]
        rw [unanchored_append_cons front (by decide), unanchored_append_cons front (by decide),
          unanchored_foreign_cons (by decide), further]
      · cases found

/-- A quoted title has an anchor only in the title. -/
theorem unanchored_quote {fresh : Bool} (title rest : Text) :
    Unanchored fresh (quote title ++ rest) ↔ Unanchored false title ∧ Unanchored false rest := by
  have text : quote title ++ rest = '"' :: (replaceAll bareQuote title ++ '"' :: rest) := by
    simp [quote]
  rw [text, unanchored_foreign_cons (by decide), unanchored_append_cons _ (by decide), unanchored_escaped]

/-- A block with a title is clear if the title and what is inside are. -/
theorem clearIff_titledBlock (callee : '{' ∉ name) (inside : ClearInsideIff inner free) :
    ClearIff (titledBlock name title inner) (Unanchored false title ∧ free) := by
  intro rest
  have text : unindented (titledBlock name title inner) ++ rest =
      (name ++ "( ".toList) ++ '"' :: (replaceAll bareQuote title ++ '"' :: (", function() \x7b".toList ++
        '\n' :: (unindented inner ++ '}' :: (" );".toList ++ '\n' :: rest)))) := by
    simp [titledBlock, quote, callTail]
  rw [text, unanchored_foreign (by simpa using callee) (by decide), unanchored_append_cons _ (by decide),
    unanchored_escaped, unanchored_append_of_not_mem (by decide), unanchored_newline, inside,
    unanchored_append_of_not_mem (by decide), unanchored_newline, and_assoc]

/-- A block without a title is clear if what is inside and behind is. -/
theorem clearIff_functionBlock {more : Text} (callee : '{' ∉ name) (inside : ClearInsideIff inner free)
    (behind : ∀ rest, Unanchored false (more ++ '\n' :: rest) ↔ free' ∧ Unanchored true rest) :
    ClearIff (functionBlock name inner ('}' :: more)) (free ∧ free') := by
  intro rest
  have text : unindented (functionBlock name inner ('}' :: more)) ++ rest =
      (name ++ "( function(".toList) ++ ')' :: (" \x7b".toList ++
        '\n' :: (unindented inner ++ '}' :: (more ++ '\n' :: rest))) := by
    simp [functionBlock]
  rw [text, unanchored_foreign (by simpa using callee) (by decide), unanchored_append_of_not_mem (by decide),
    unanchored_newline, inside, behind, and_assoc]

/-- A block that is a call is clear if what is inside is. -/
theorem clearIff_callBlock (callee : '{' ∉ name) (inside : ClearInsideIff inner free) :
    ClearIff (functionBlock name inner callTail) free := by
  have behind : ∀ rest, Unanchored false (" );".toList ++ '\n' :: rest) ↔ True ∧ Unanchored true rest := by
    intro rest
    rw [unanchored_append_of_not_mem (by decide), unanchored_newline]
    simp
  exact (clearIff_functionBlock callee inside behind).congr (by simp)

/-- The creation of a fixture is clear if the name of the constructor is. -/
theorem clearIff_creation (closed : '{' ∉ fixture) (constructorName : Option Text) :
    ClearIff (creation fixture constructorName) (∀ name ∈ constructorName, Unanchored false name) := by
  cases constructorName with
  | none =>
    have created : ClearIff (ofText (fixture ++ " = \x7b\x7d;".toList)) True :=
      .line (fixture ++ [' ']) '=' " \x7b\x7d;".toList (by simp) (by simpa using closed) (by decide)
        (by decide)
    exact created.congr (by simp)
  | some constructor =>
    have created : ClearIff (ofText (fixture ++ " = new ".toList ++ constructor ++ "();".toList))
        (Unanchored false constructor) := by
      intro rest
      have text : unindented (ofText (fixture ++ " = new ".toList ++ constructor ++ "();".toList)) ++ rest =
          (fixture ++ [' ']) ++ '=' :: (" new ".toList ++ (constructor ++ ['('] ++
            ')' :: ([';'] ++ '\n' :: rest))) := by
        simp
      rw [text, unanchored_foreign (by simpa using closed) (by decide),
        unanchored_append_of_not_mem (by decide), unanchored_across _ (by decide) (by decide),
        unanchored_append_of_not_mem (by decide), unanchored_newline]
    have called : ClearIff (ofText (fixture ++ ".setUp();".toList)) True :=
      .line (fixture ++ ".setUp(".toList) ')' [';'] (by simp) (by simpa using closed) (by decide) (by decide)
    exact (created.append called).congr (by simp)

/-- The hook before each test is clear if the constructor and the body are. -/
theorem clearIff_beforeEach (closed : '{' ∉ fixture) (constructorName : Option Text) (body : Text) :
    ClearIff (beforeEach fixture constructorName body)
      ((∀ name ∈ constructorName, Unanchored false name) ∧ Unanchored true body) := by
  have declared : ClearIff (ofText ("var ".toList ++ fixture ++ [';'])) True :=
    .line ("var ".toList ++ fixture) ';' [] rfl (by simpa using closed) (by decide) (by decide)
  have own : ClearInsideIff (if body.isEmpty then [] else blank ++ ofText body) (Unanchored true body) := by
    split
    · next empty =>
      rw [List.isEmpty_iff.mp empty]
      exact ClearIff.nil.inside.congr (by simp)
    · exact (ClearInsideIff.append .blank (.ofText body)).congr (by simp)
  have block := clearIff_callBlock (show '{' ∉ "beforeEach".toList by decide)
    (.append (clearIff_creation closed constructorName) own)
  rw [beforeEach_eq]
  exact ((declared.append .blank).append block).congr (by simp)

/-- A body in front of the call that ends the hook of a directly constructed test case. -/
theorem clearIff_tearDown (closed : '{' ∉ fixture) (body : Text) :
    ClearIff
      ((if body.isEmpty then [] else ofText body ++ blank) ++ ofText (fixture ++ ".tearDown();".toList))
      (Unanchored true body) := by
  split
  · next empty =>
    have called : ClearIff (ofText (fixture ++ ".tearDown();".toList)) True :=
      .line (fixture ++ ".tearDown(".toList) ')' [';'] (by simp) (by simpa using closed) (by decide)
        (by decide)
    rw [List.isEmpty_iff.mp empty]
    exact called.congr (by simp)
  · intro rest
    have text : unindented (ofText body ++ blank ++ ofText (fixture ++ ".tearDown();".toList)) ++ rest =
        body ++ ("\n\n".toList ++ fixture ++ ".tearDown(".toList) ++ ')' :: ([';'] ++ '\n' :: rest) := by
      simp
    rw [text, unanchored_across body (by simpa using closed) (by decide),
      unanchored_append_of_not_mem (by decide), unanchored_newline]

/-- The hook after each test is clear if the body is. -/
theorem clearIff_afterEach (closed : '{' ∉ fixture) (constructorName : Option Text) (body : Text) :
    ClearIff (afterEach fixture constructorName body) (Unanchored true body) := by
  refine clearIff_callBlock (by decide) ?_
  cases constructorName with
  | none => exact .ofBody body
  | some _ => exact (clearIff_tearDown closed body).inside

/-- A hook of a test case. One without a body may still be written, and says then no more than `free`. -/
theorem clearIff_hook {found : TestCase} {code : Text → List Line}
    (each : ∀ body, ClearIff (code body) (free ∧ Unanchored true body))
    (unconstructed : found.constructorName = none → free) (hook : Option Code) :
    ClearIff (((hookBody? found hook).map fun body => code body ++ blank).getD [])
      (free ∧ ∀ written ∈ hook, Unanchored true written.body) := by
  cases hook with
  | some written =>
    have body : hookBody? found (some written) = some written.body := by
      unfold hookBody?
      split <;> rfl
    rw [body]
    exact ((each written.body).append .blank).congr (by simp)
  | none =>
    cases constructed : found.constructorName with
    | none =>
      have body : hookBody? found none = none := by simp [hookBody?, constructed]
      rw [body]
      exact ClearIff.nil.congr (by simpa using unconstructed constructed)
    | some name =>
      have body : hookBody? found none = some [] := by simp [hookBody?, constructed]
      rw [body]
      exact ((each []).append .blank).congr (by simp)

/-- The hooks are clear if their bodies and the constructor are. -/
theorem clearIff_hooks (closed : '{' ∉ fixture) (found : TestCase) :
    ClearIff (hooks fixture found)
      ((∀ name ∈ found.constructorName, Unanchored false name) ∧
        (∀ code ∈ found.setUp, Unanchored true code.body) ∧
        ∀ code ∈ found.tearDown, Unanchored true code.body) := by
  have unconstructed : found.constructorName = none →
      ∀ name ∈ found.constructorName, Unanchored false name := by
    intro absent
    simp [absent]
  have setUp := clearIff_hook (clearIff_beforeEach closed found.constructorName) unconstructed found.setUp
  have afterEach : ∀ body, ClearIff (afterEach fixture found.constructorName body)
      (True ∧ Unanchored true body) :=
    fun body => (clearIff_afterEach closed found.constructorName body).congr (by simp)
  have tearDown := clearIff_hook afterEach (fun (_ : found.constructorName = none) => trivial) found.tearDown
  rw [hooks_eq]
  exact (setUp.append tearDown).congr (by rw [true_and, and_assoc])

theorem clearIff_apart (clear : ClearIff inner free) : ClearIff (apart inner) free :=
  ((ClearIff.blank.append clear).append .blank).congr (by simp)

/-- A helper method is clear exactly if it has no anchor. -/
theorem clearIff_helper (found : Helper) : ClearIff (helper found) found.Unanchored := by
  intro rest
  have text : unindented (helper found) ++ rest =
      ("function ".toList ++ (found.name ++ '(' :: found.parameters)) ++ ')' :: (" \x7b".toList ++
        '\n' :: (unindented (ofBody found.code.body) ++ '}' :: ('\n' :: rest))) := by
    simp [helper]
  have none : anchor? ("function ".toList ++ (found.name ++ '(' :: found.parameters)) = none := rfl
  have keyword : '\n' ∉ "function ".toList := by decide
  have opens : '\n' ∉ " \x7b".toList := by decide
  rw [text, unanchored_append_cons _ (by decide), unanchored_true_iff, unanchored_append_of_not_mem keyword,
    unanchored_append_of_not_mem opens, unanchored_newline, ClearInsideIff.ofBody, unanchored_newline]
  constructor
  · rintro ⟨⟨-, head⟩, body, behind⟩
    exact ⟨⟨head, body⟩, behind⟩
  · rintro ⟨⟨head, body⟩, behind⟩
    exact ⟨⟨none, head⟩, body, behind⟩

/-- A test has no anchor if its name, its body and its message have none. -/
theorem unanchored_test_iff {should : Option Should} {found : Test} :
    found.Unanchored should ↔ Unanchored false found.name ∧ Unanchored true found.code.body ∧
      ∀ message ∈ should.bind (·.expectedError found.name), Unanchored false message :=
  ⟨fun ⟨name, body, message⟩ => ⟨name, body, message⟩,
    fun ⟨name, body, message⟩ => ⟨name, body, message⟩⟩

/-- A test is clear exactly if it has no anchor. -/
theorem clearIff_test (should : Option Should) (found : Test) :
    ClearIff (test should found) (found.Unanchored should) := by
  have callee : '{' ∉ (if should.any (·.isIgnored found.name) then "xit".toList else "it".toList) := by
    split <;> decide
  have body := ClearInsideIff.ofBody found.code.body
  refine ClearIff.congr (clearIff_titledBlock callee (?_ : ClearInsideIff _
    (Unanchored true found.code.body ∧
      ∀ message ∈ should.bind (·.expectedError found.name), Unanchored false message)))
    unanchored_test_iff.symm
  cases should.bind (·.expectedError found.name) with
  | none => exact body.congr (by simp)
  | some message =>
    have behind : ∀ rest,
        Unanchored false (" ).toThrow( ".toList ++ quote message ++ " );".toList ++ '\n' :: rest) ↔
          Unanchored false message ∧ Unanchored true rest := by
      intro rest
      have opened : '\n' ∉ " ).toThrow( ".toList := by decide
      have ended : '\n' ∉ " );".toList := by decide
      rw [List.append_assoc, List.append_assoc, unanchored_append_of_not_mem opened, unanchored_quote,
        unanchored_append_of_not_mem ended, unanchored_newline]
    exact (clearIff_functionBlock (by decide) body behind).inside.congr (by simp)

/-- A test case is clear exactly if it has no anchor. -/
theorem clearIff_testCase (closed : '{' ∉ fixture) (found : TestCase) :
    ClearIff (testCase fixture found) found.Unanchored := by
  have helpers := ClearIff.flatMap fun helper (_ : helper ∈ found.helpers) =>
    clearIff_apart (clearIff_helper helper)
  have tests := ClearIff.flatMap fun test (_ : test ∈ found.tests) =>
    clearIff_apart (clearIff_test found.should test)
  have inside := (((clearIff_hooks closed found).append helpers).append tests).inside
  refine (clearIff_titledBlock (by decide) inside).congr ⟨?_, ?_⟩
  · rintro ⟨name, ⟨⟨constructorName, setUp, tearDown⟩, helpers⟩, tests⟩
    exact ⟨name, constructorName, setUp, tearDown, helpers, tests⟩
  · rintro ⟨name, constructorName, setUp, tearDown, helpers, tests⟩
    exact ⟨name, ⟨⟨constructorName, setUp, tearDown⟩, helpers⟩, tests⟩

mutual

/-- A container is clear exactly if it has no anchor. -/
theorem clearIff_container (closed : '{' ∉ fixture) :
    (tree : Container) → ClearIff (container fixture tree) tree.Unanchored
  | .suite name children =>
    (clearIff_titledBlock (by decide) (clearIff_containers closed children).inside).congr
      Container.unanchored_suite_iff.symm
  | .testCase inner => (clearIff_testCase closed inner).congr Container.unanchored_testCase_iff.symm

/-- Containers are clear exactly if none of them has an anchor. -/
theorem clearIff_containers (closed : '{' ∉ fixture) :
    (children : List Container) →
      ClearIff (containers fixture children) (∀ child ∈ children, child.Unanchored)
  | [] => ClearIff.nil.congr (by simp)
  | child :: children =>
    ((clearIff_apart (clearIff_container closed child)).append (clearIff_containers closed children)).congr
      (by simp)

end

/-- A spec opens an outer container exactly where one of its pieces does. -/
theorem unanchored_write_iff {style : Style} (blank : ∀ c ∈ style.unit, isIndent c = true)
    (closed : '{' ∉ style.fixture) (tree : Container) :
    Unanchored true (write style tree) ↔ tree.Unanchored := by
  obtain ⟨plain, indent, text, code, laidOut, indented, indents⟩ :=
    exists_indents_of_renderAll blank style.level (container_ne_nil style.fixture tree)
  have clear := (clearIff_container closed tree).inside []
  rw [code, unanchored_across plain (by decide) (by decide)] at clear
  unfold write
  rw [laidOut, unanchored_indent indented, unanchored_indents indents]
  simpa using clear

/-- A spec opens with a quote behind a word, and ends with a semicolon. -/
theorem exists_write {style : Style} (blank : ∀ c ∈ style.unit, isIndent c = true) (tree : Container) :
    ∃ indent front, (∀ c ∈ indent, isIndent c = true) ∧
      write style tree = indent ++ "describe( ".toList ++ '"' :: (front ++ [';']) := by
  obtain ⟨inner, block⟩ : ∃ inner,
      container style.fixture tree = titledBlock "describe".toList tree.name inner := by
    cases tree <;> exact ⟨_, rfl⟩
  obtain ⟨plain, indent, text, code, laidOut, indented, indents⟩ :=
    exists_indents_of_renderAll blank style.level (container_ne_nil style.fixture tree)
  have parts : plain = "describe( \"".toList ++ (replaceAll bareQuote tree.name ++
      "\", function() \x7b\n".toList ++ unindented inner ++ "\x7d )".toList ++ [';']) := by
    apply (List.append_left_inj ['\n']).mp
    rw [← code, block]
    simp [titledBlock, quote, callTail]
  rw [parts] at indents
  obtain ⟨lead, behind, rfl, isLead, indents⟩ := indents.exists_append
  obtain ⟨front, last, rfl, -, isLast⟩ := indents.exists_append
  rw [isLead.eq_of_not_mem (by decide), isLast.eq_of_not_mem (by decide)] at laidOut
  refine ⟨indent, front, indented, ?_⟩
  rw [write, laidOut]
  simp

end Spec

/-! ## The list of global names -/

namespace Globals

/-- A list of global names is a comment on one line. -/
theorem unanchored_comment {names : List Text} (single : '\n' ∉ join ", ".toList names) (fresh : Bool)
    (lead tail : Text) :
    Unanchored fresh (lead ++ comment names ++ tail) ↔ Unanchored fresh lead ∧ Unanchored false tail := by
  have opens : '\n' ∉ "*global ".toList := by decide
  have closes : '\n' ∉ " */".toList := by decide
  have text : lead ++ comment names ++ tail =
      lead ++ '/' :: ("*global ".toList ++ (join ", ".toList names ++ (" */".toList ++ tail))) := by
    unfold comment
    generalize join ", ".toList names = joined
    simp
  rw [text, unanchored_append_cons lead (by decide), unanchored_append_of_not_mem opens,
    unanchored_append_of_not_mem single, unanchored_append_of_not_mem closes]

/-- Neither a new list of global names nor the change of a list plays a part in anchors. -/
theorem unanchored_convert (text : Text) :
    Unanchored true (convert text) ↔ Unanchored true text := by
  unfold convert
  split
  · have single : '\n' ∉ join ", ".toList added := by decide
    have onTop := unanchored_comment single true [] ('\n' :: text)
    rw [unanchored_newline, List.nil_append] at onTop
    rw [List.append_assoc, List.singleton_append, onTop]
    exact and_iff_right (unanchored_nil true)
  · next lead listed tail found =>
    obtain ⟨blank, header⟩ := exists_header_of_find? found
    have oneLine := header.unended.oneLine
    have opens : '\n' ∉ "*global ".toList := by decide
    have closed : '{' ∉ blank := fun member => absurd (isBlankText_iff.mp header.white _ member) (by decide)
    have split : text = lead ++ '/' :: ("*global ".toList ++ (listed ++ (blank ++ '*' :: '/' :: tail))) := by
      rw [header.here]
      simp
    rw [unanchored_comment (unended_update header.unended).oneLine, split,
      unanchored_append_cons lead (by decide), unanchored_append_of_not_mem opens,
      unanchored_append_of_not_mem oneLine, unanchored_foreign closed (by decide),
      unanchored_foreign_cons (by decide)]

end Globals

end JasmineConversion
