import JasmineConversion.Spec.Writer

/-! # Emitting specs line by line

A spec can be written by a writer that carries the lines written so far and the level of the next
one, raises the level inside a block and lowers it behind. The lines of a spec with their depths say
what such a writer writes: at any level, behind any lines, it writes these lines at their depths below
the level and is then at the level it came with.
-/

namespace JasmineConversion.Spec

open Text

/-- What a writer carries along: the lines written so far, and the level of the next one. -/
structure Emitter where
  lines : List Text
  level : Int

/-- A step of a writer. -/
abbrev Emitting := StateM Emitter

namespace Emitting

/-- Writes the lines of a text at the level reached. An empty line gets no indent. -/
def emit (unit text : Text) : Emitting Unit :=
  modify fun writer =>
    let written (line : Text) : Text :=
      if line.isEmpty then [] else repeated writer.level.toNat unit ++ line
    { writer with lines := writer.lines ++ (lines text).map written }

/-- Goes a level deeper. -/
def raise : Emitting Unit :=
  modify fun writer => { writer with level := writer.level + 1 }

/-- Goes back a level. -/
def lower : Emitting Unit :=
  modify fun writer => { writer with level := writer.level - 1 }

/-- Writes a body; an empty one is left out. -/
def emitBody (unit body : Text) : Emitting Unit :=
  if body.isEmpty then pure () else emit unit body

/-- Takes a step for each of some values, between empty lines. -/
def emitApart {α : Type} (unit : Text) (step : α → Emitting Unit) : List α → Emitting Unit
  | [] => pure ()
  | first :: rest => do
    emit unit []
    step first
    emit unit []
    emitApart unit step rest

/-- Writes the code that runs before each test. -/
def setUp (style : Style) (constructorName : Option Text) (body : Text) : Emitting Unit := do
  emit style.unit ("var ".toList ++ style.fixture ++ [';'])
  emit style.unit []
  emit style.unit "beforeEach( function() \x7b".toList
  raise
  creation
  rest
  lower
  emit style.unit callTail
where
  /-- Writes how the fixture is made. -/
  creation : Emitting Unit :=
    match constructorName with
    | some name => do
      emit style.unit (style.fixture ++ " = new ".toList ++ name ++ "();".toList)
      emit style.unit (style.fixture ++ ".setUp();".toList)
    | none => emit style.unit (style.fixture ++ " = \x7b\x7d;".toList)
  /-- Writes the body behind an empty line, if there is one. -/
  rest : Emitting Unit :=
    if body.isEmpty then pure () else do
      emit style.unit []
      emit style.unit body

/-- Writes the code that runs after each test. -/
def tearDown (style : Style) (constructorName : Option Text) (body : Text) : Emitting Unit := do
  emit style.unit "afterEach( function() \x7b".toList
  raise
  inner
  lower
  emit style.unit callTail
where
  /-- Writes the body, and the call of the constructed fixture behind it. -/
  inner : Emitting Unit :=
    match constructorName with
    | some _ => do
      own
      emit style.unit (style.fixture ++ ".tearDown();".toList)
    | none => emitBody style.unit body
  /-- Writes the body with an empty line behind it, if there is one. -/
  own : Emitting Unit :=
    if body.isEmpty then pure () else do
      emit style.unit body
      emit style.unit []

/-- Writes a hook with an empty line behind it, if there is one. -/
def emitHook (unit : Text) (step : Text → Emitting Unit) : Option Text → Emitting Unit
  | some body => do
    step body
    emit unit []
  | none => pure ()

/-- Writes the hooks of a test case. A directly constructed one always has both. -/
def hooks (style : Style) (found : TestCase) : Emitting Unit :=
  let setUpBody := found.setUp.map (·.body)
  let tearDownBody := found.tearDown.map (·.body)
  match found.constructorName with
  | some name => do
    setUp style (some name) (setUpBody.getD [])
    emit style.unit []
    tearDown style (some name) (tearDownBody.getD [])
    emit style.unit []
  | none => do
    emitHook style.unit (setUp style none) setUpBody
    emitHook style.unit (tearDown style none) tearDownBody

/-- Writes a helper method. -/
def helper (style : Style) (found : Helper) : Emitting Unit := do
  emit style.unit
    ("function ".toList ++ found.name ++ ['('] ++ found.parameters ++ ") \x7b".toList)
  raise
  emitBody style.unit found.code.body
  lower
  emit style.unit ['\x7d']

/-- Writes a test. The level is raised once more inside a call that expects an error. -/
def test (style : Style) (should : Option Should) (found : Test) : Emitting Unit := do
  emit style.unit
    ((if should.any (·.isIgnored found.name) then "xit".toList else "it".toList) ++
      "( ".toList ++ quote found.name ++ ", function() \x7b".toList)
  raise
  inner
  lower
  emit style.unit callTail
where
  /-- Writes the body, inside a call that expects an error if one is to be thrown. -/
  inner : Emitting Unit :=
    match should.bind (·.expectedError found.name) with
    | some message => do
      emit style.unit "expect( function() \x7b".toList
      raise
      emitBody style.unit found.code.body
      lower
      emit style.unit ("\x7d ).toThrow( ".toList ++ quote message ++ " );".toList)
    | none => emitBody style.unit found.code.body

/-- Writes a test case. -/
def testCase (style : Style) (found : TestCase) : Emitting Unit := do
  emit style.unit ("describe( ".toList ++ quote found.name ++ ", function() \x7b".toList)
  raise
  hooks style found
  emitApart style.unit (helper style) found.helpers
  emitApart style.unit (test style found.should) found.tests
  lower
  emit style.unit callTail

mutual

/-- Writes a container and all it holds. -/
def container (style : Style) : Container → Emitting Unit
  | .suite name children => do
    emit style.unit ("describe( ".toList ++ quote name ++ ", function() \x7b".toList)
    raise
    containers style children
    lower
    emit style.unit callTail
  | .testCase inner => testCase style inner

/-- Writes containers in order, each between empty lines. -/
def containers (style : Style) : List Container → Emitting Unit
  | [] => pure ()
  | first :: rest => do
    emit style.unit []
    container style first
    emit style.unit []
    containers style rest

end

end Emitting

/-- A step that writes given lines of code: at any level, behind any lines, it writes them at their
depths below the level and is then at this level again. -/
def Emits (unit : Text) (step : Emitting Unit) (code : List Line) : Prop :=
  ∀ written level,
    step ⟨written, level⟩ = ((), ⟨written ++ code.map (Line.render unit level), level⟩)

namespace Emits

variable {unit : Text} {step next : Emitting Unit} {code code' : List Line}

/-- A step that does nothing writes no lines. -/
theorem pure : Emits unit (Pure.pure ()) [] := by
  intro written level
  rw [List.map_nil, List.append_nil]
  rfl

/-- A text is written as its lines. -/
theorem emit (text : Text) : Emits unit (Emitting.emit unit text) (Line.ofText text) := by
  intro written level
  have rendered (line : Text) :
      Line.render unit level ⟨0, line⟩ =
        if line.isEmpty then [] else repeated level.toNat unit ++ line := by
    simp only [Line.render, Int.natCast_zero, Int.add_zero]
  simp only [Line.ofText, List.map_map, Function.comp_def, rendered]
  rfl

/-- Two steps write the lines of the first and then those of the second. -/
theorem andThen (first : Emits unit step code) (second : Emits unit next code') :
    Emits unit (do step; next) (code ++ code') := by
  intro written level
  change next (step ⟨written, level⟩).2 = _
  rw [first, second, List.map_append, List.append_assoc]

/-- A step between raising and lowering the level writes its lines one unit deeper. -/
theorem deeper (inner : Emits unit step code) :
    Emits unit (do Emitting.raise; step; Emitting.lower) (Line.deeper code) := by
  intro written level
  change Emitting.lower (step ⟨written, level + 1⟩).2 = _
  have rendered (line : Line) :
      Line.render unit level { line with depth := line.depth + 1 } =
        Line.render unit (level + 1) line := by
    have sum : level + (line.depth + 1 : Nat) = level + 1 + line.depth := by omega
    simp only [Line.render, sum]
  rw [inner, Line.deeper, List.map_map]
  simp only [Function.comp_def, rendered]
  change ((), Emitter.mk _ (level + 1 - 1)) = _
  rw [Int.add_sub_cancel]

/-- A step between a head and a tail, with the level raised in between, writes a block. -/
theorem block (head tail : Text) (inner : Emits unit step code) :
    Emits unit
      (do Emitting.emit unit head; Emitting.raise; step; Emitting.lower; Emitting.emit unit tail)
      (Line.block head code tail) := by
  rw [Line.block, List.append_assoc]
  exact (emit head).andThen ((deeper inner).andThen (emit tail))

/-- A body is written as its lines, and an empty one as none. -/
theorem emitBody (body : Text) : Emits unit (Emitting.emitBody unit body) (Line.ofBody body) := by
  unfold Emitting.emitBody Line.ofBody
  split
  · exact pure
  · exact emit body

/-- A step between empty lines writes its lines set apart. -/
theorem apart (inner : Emits unit step code) (rest : Emits unit next code') :
    Emits unit (do Emitting.emit unit []; step; Emitting.emit unit []; next)
      (Spec.apart code ++ code') := by
  rw [Spec.apart, List.append_assoc, List.append_assoc]
  exact (emit []).andThen (inner.andThen ((emit []).andThen rest))

/-- Steps for each of some values write their lines set apart, in order. -/
theorem emitApart {α : Type} {step : α → Emitting Unit} {code : α → List Line}
    (each : ∀ value, Emits unit (step value) (code value)) (values : List α) :
    Emits unit (Emitting.emitApart unit step values)
      (values.flatMap fun value => Spec.apart (code value)) := by
  induction values with
  | nil => exact pure
  | cons value values ih =>
    rw [Emitting.emitApart, List.flatMap_cons]
    exact apart (each value) ih

/-- The hook before each test is written as its lines. -/
theorem setUp (style : Style) (constructorName : Option Text) (body : Text) :
    Emits style.unit (Emitting.setUp style constructorName body)
      (beforeEach style.fixture constructorName body) := by
  have whole {code code' : List Line}
      (creation : Emits style.unit (Emitting.setUp.creation style constructorName) code)
      (rest : Emits style.unit (Emitting.setUp.rest style body) code') :=
    ((emit ("var ".toList ++ style.fixture ++ [';'])).andThen (emit [])).andThen
      (block "beforeEach( function() \x7b".toList callTail (creation.andThen rest))
  refine whole ?_ ?_
  · cases constructorName with
    | some name => exact (emit _).andThen (emit _)
    | none => exact emit _
  · unfold Emitting.setUp.rest
    split
    · exact pure
    · exact (emit []).andThen (emit body)

/-- The hook after each test is written as its lines. -/
theorem tearDown (style : Style) (constructorName : Option Text) (body : Text) :
    Emits style.unit (Emitting.tearDown style constructorName body)
      (afterEach style.fixture constructorName body) := by
  refine block "afterEach( function() \x7b".toList callTail ?_
  cases constructorName with
  | some name =>
    refine andThen ?_ (emit _)
    unfold Emitting.tearDown.own
    split
    · exact pure
    · exact (emit body).andThen (emit [])
  | none => exact emitBody body

/-- A hook is written as its lines and an empty one behind them, and a missing one as none. -/
theorem emitHook {step : Text → Emitting Unit} {code : Text → List Line}
    (each : ∀ body, Emits unit (step body) (code body)) (hook : Option Text) :
    Emits unit (Emitting.emitHook unit step hook)
      ((hook.map fun body => code body ++ Line.blank).getD []) := by
  cases hook with
  | some body => exact (each body).andThen (emit [])
  | none => exact pure

/-- The hooks of a test case are written as their lines. -/
theorem hooks (style : Style) (found : TestCase) :
    Emits style.unit (Emitting.hooks style found) (Spec.hooks style.fixture found) := by
  unfold Spec.hooks Emitting.hooks
  cases found.constructorName with
  | some name =>
    have both (setUpBody tearDownBody : Text) :=
      ((setUp style (some name) setUpBody).andThen (emit [])).andThen
        ((tearDown style (some name) tearDownBody).andThen (emit []))
    exact both _ _
  | none =>
    exact (emitHook (setUp style none) (found.setUp.map (·.body))).andThen
      (emitHook (tearDown style none) (found.tearDown.map (·.body)))

/-- A helper method is written as its lines. -/
theorem helper (style : Style) (found : Helper) :
    Emits style.unit (Emitting.helper style found) (Spec.helper found) :=
  block _ _ (emitBody found.code.body)

/-- A test is written as its lines, also where the level is raised twice. -/
theorem test (style : Style) (should : Option Should) (found : Test) :
    Emits style.unit (Emitting.test style should found) (Spec.test should found) := by
  unfold Spec.test Emitting.test
  refine block _ callTail ?_
  unfold Emitting.test.inner
  cases should.bind (·.expectedError found.name) with
  | some message => exact block _ _ (emitBody found.code.body)
  | none => exact emitBody found.code.body

/-- A test case is written as its lines. -/
theorem testCase (style : Style) (found : TestCase) :
    Emits style.unit (Emitting.testCase style found) (Spec.testCase style.fixture found) := by
  have inner :=
    ((hooks style found).andThen (emitApart (helper style) found.helpers)).andThen
      (emitApart (test style found.should) found.tests)
  exact block _ _ inner

mutual

/-- A container is written as its lines. -/
theorem container (style : Style) (tree : Container) :
    Emits style.unit (Emitting.container style tree) (Spec.container style.fixture tree) := by
  cases tree with
  | suite name children => exact block _ _ (containers style children)
  | testCase inner => exact testCase style inner

/-- Containers are written as their lines. -/
theorem containers (style : Style) (trees : List Container) :
    Emits style.unit (Emitting.containers style trees) (Spec.containers style.fixture trees) := by
  cases trees with
  | nil => exact pure
  | cons first rest => exact apart (container style first) (containers style rest)

end

end Emits

/-- What a writer that starts at the level of a style makes of a tree: the text of the lines written,
and the level at the end. -/
def emitted (style : Style) (tree : Container) : Text × Int :=
  let writer := ((Emitting.container style tree).run ⟨[], style.level⟩).2
  (unlines writer.lines, writer.level)

/-- A writer emits the text of the spec, and lowers its level as often as it raises it. -/
theorem emitted_eq (style : Style) (tree : Container) :
    emitted style tree = (write style tree, style.level) := by
  have ran := Emits.container style tree [] style.level
  change (unlines (Emitting.container style tree ⟨[], style.level⟩).2.lines,
    (Emitting.container style tree ⟨[], style.level⟩).2.level) = _
  rw [ran]
  rfl

end JasmineConversion.Spec
