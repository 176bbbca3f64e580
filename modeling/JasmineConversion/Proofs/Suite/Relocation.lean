import JasmineConversion.Proofs.Suite.Adaptation
import JasmineConversion.Proofs.Suite.Lines
import JasmineConversion.Spec.Writer

/-! # Adapting trees on other lines

A tree that is moved down is adapted as before: its bodies become the same, and a failure is the
same one, moved down as well. The spec for a tree does not depend on its lines at all.
-/

namespace JasmineConversion

open Text

/-- The trail of an adaptation with its failure moved down. -/
def Trail.relocate (trail : Trail) (lines : Int) : Trail :=
  { trail with failure := trail.failure.map (·.relocate lines) }

@[simp] theorem Trail.relocate_isSome (trail : Trail) (lines : Int) :
    (trail.relocate lines).failure.isSome = trail.failure.isSome := by
  simp [Trail.relocate]

/-- An error is moved down by the sum of two distances. -/
theorem SourceError.relocate_relocate (error : SourceError) (first second : Int) :
    (error.relocate first).relocate second = error.relocate (first + second) := by
  obtain ⟨cause, location⟩ := error
  cases location with
  | none => rfl
  | some location => simp [relocate, Int.add_assoc]

/-- A step of an adaptation does the same on other lines, up to the lines of its result and of its
failure. -/
def Relocates {α : Type} (lines : Int) (step moved : Adapting α) (move : α → α) : Prop :=
  ∀ trail : Trail, moved (trail.relocate lines) =
    (move (step trail).1, (step trail).2.relocate lines)

namespace Relocates

variable {α β : Type} {lines : Int}

/-- Two steps relocate if each of them does. -/
theorem bind {step moved : Adapting α} {move : α → α} {next next' : α → Adapting β} {move' : β → β}
    (first : Relocates lines step moved move)
    (second : ∀ value, Relocates lines (next value) (next' (move value)) move') :
    Relocates lines (step >>= next) (moved >>= next') move' := by
  intro trail
  change next' (moved (trail.relocate lines)).1 (moved (trail.relocate lines)).2 = _
  rw [first trail]
  exact second _ _

theorem pure (value : α) (move : α → α) :
    Relocates lines (Pure.pure value) (Pure.pure (move value)) move :=
  fun _ => rfl

/-- A changed step relocates if the change goes with the move. -/
theorem map {step moved : Adapting α} {move : α → α} {change : α → β} {move' : β → β}
    (first : Relocates lines step moved move) (commutes : ∀ value, change (move value) = move' (change value)) :
    Relocates lines (change <$> step) (change <$> moved) move' := by
  intro trail
  change (change (moved (trail.relocate lines)).1, (moved (trail.relocate lines)).2) = _
  rw [first trail, commutes]
  rfl

/-- A note relocates. -/
theorem note (message : String) :
    Relocates lines (Adapting.note message) (Adapting.note message) id := by
  intro trail
  rw [Adapting.note_apply, Adapting.note_apply, Trail.relocate_isSome]
  by_cases failed : trail.failure.isSome = true
  · rw [if_pos failed, if_pos failed]
  · rw [if_neg failed, if_neg failed]
    rfl

/-- Adapting a body relocates. -/
theorem code (adapt : Text → List LogRecord × Except SourceError Text) (found : Code) :
    Relocates lines (Adapting.code adapt found) (Adapting.code adapt (found.mapLine (· + lines)))
      (Code.mapLine (· + lines)) := by
  intro trail
  rw [Adapting.code_apply, Adapting.code_apply, Trail.relocate_isSome]
  by_cases failed : trail.failure.isSome = true
  · rw [if_pos failed, if_pos failed]
  · rw [if_neg failed, if_neg failed]
    have unfailed : trail.failure = none := by simpa using failed
    have kept : (found.mapLine (· + lines)).body = found.body := rfl
    rw [kept]
    cases (adapt found.body).2 with
    | ok body => rfl
    | error error =>
      have line : found.line + lines - 1 = found.line - 1 + lines := by omega
      simp only [Trail.relocate, Option.map_some, SourceError.relocate_relocate, Code.mapLine, line]

/-- Steps for the values of a list relocate if each of them does. -/
theorem mapM {step : α → Adapting α} {move : α → α}
    (each : ∀ value, Relocates lines (step value) (step (move value)) move) (values : List α) :
    Relocates lines (values.mapM step) ((values.map move).mapM step) (List.map move) := by
  induction values with
  | nil => exact pure [] _
  | cons value values ih =>
    rw [List.map_cons, List.mapM_cons, List.mapM_cons]
    refine (each value).bind fun first => ih.bind fun others => ?_
    exact pure (first :: others) (List.map move)

/-- Adapting a hook relocates. -/
theorem hook (adapt : Text → Except SourceError Text) (found : Option Code) :
    Relocates lines (Adapting.hook adapt found) (Adapting.hook adapt (found.map (Code.mapLine (· + lines))))
      (Option.map (Code.mapLine (· + lines))) := by
  cases found with
  | none => exact pure none (Option.map (Code.mapLine (· + lines)))
  | some found => exact (code _ found).map fun _ => rfl

/-- Adapting a helper method relocates. -/
theorem helper (style : BodyStyle) (names : List Text) (found : Helper) :
    Relocates lines (Adapting.helper style names found)
      (Adapting.helper style names (found.mapLine (· + lines))) (Helper.mapLine (· + lines)) :=
  (code (style.testBody names) found.code).bind fun adapted =>
    pure { found with code := adapted } (Helper.mapLine (· + lines))

/-- Adapting a test relocates. -/
theorem test (style : BodyStyle) (names : List Text) (found : Test) :
    Relocates lines (Adapting.test style names found)
      (Adapting.test style names (found.mapLine (· + lines))) (Test.mapLine (· + lines)) :=
  (code (style.testBody names) found.code).bind fun adapted =>
    pure { found with code := adapted } (Test.mapLine (· + lines))

/-- Looking at the own hooks of a test case relocates. -/
theorem ownHooks (found : TestCase) :
    Relocates lines (Adapting.ownHooks found) (Adapting.ownHooks (found.mapLines (· + lines)))
      (Prod.map (Option.map (Code.mapLine (· + lines))) (Option.map (Code.mapLine (· + lines)))) := by
  let move := Option.map (Code.mapLine (· + lines))
  unfold Adapting.ownHooks
  cases constructed : found.constructorName with
  | none =>
    simp only [TestCase.mapLines, constructed, Option.isSome_none, Bool.false_eq_true, if_false]
    exact pure (found.setUp, found.tearDown) (Prod.map move move)
  | some name =>
    simp only [TestCase.mapLines, constructed, Option.isSome_some, if_true]
    refine (hook _ found.setUp).bind fun setUp => ?_
    refine (hook _ found.tearDown).bind fun tearDown => ?_
    exact pure (setUp, tearDown) (Prod.map move move)

/-- Adapting a test case relocates. -/
theorem testCase (style : BodyStyle) (found : TestCase) :
    Relocates lines (Adapting.testCase style found)
      (Adapting.testCase style (found.mapLines (· + lines))) (TestCase.mapLines (· + lines)) := by
  have names : (found.mapLines (· + lines)).helpers.map (·.name) = found.helpers.map (·.name) := by
    simp [TestCase.mapLines, Helper.mapLine]
  unfold Adapting.testCase
  rw [names]
  refine (note _).bind fun _ => ?_
  refine (ownHooks found).bind fun own => ?_
  refine (hook _ own.1).bind fun setUp => ?_
  refine (hook _ own.2).bind fun tearDown => ?_
  refine (mapM (helper style _) found.helpers).bind fun helpers => ?_
  refine (mapM (test style _) found.tests).bind fun tests => ?_
  exact pure { found with setUp, tearDown, helpers, tests } (TestCase.mapLines (· + lines))

mutual

/-- Adapting a container relocates. -/
theorem container (style : BodyStyle) (tree : Container) :
    Relocates lines (Adapting.container style tree)
      (Adapting.container style (tree.mapLines (· + lines))) (Container.mapLines (· + lines)) := by
  cases tree with
  | suite name children =>
    refine (note _).bind fun _ => ?_
    refine (containers style children).bind fun children => ?_
    exact pure (.suite name children) (Container.mapLines (· + lines))
  | testCase inner =>
    refine (testCase style inner).bind fun inner => ?_
    exact pure (.testCase inner) (Container.mapLines (· + lines))

/-- Adapting containers relocates. -/
theorem containers (style : BodyStyle) (trees : List Container) :
    Relocates lines (Adapting.containers style trees)
      (Adapting.containers style (Container.mapLines.all (· + lines) trees))
      (Container.mapLines.all (· + lines)) := by
  cases trees with
  | nil => exact pure [] (Container.mapLines.all (· + lines))
  | cons first rest =>
    refine (container style first).bind fun first => ?_
    refine (containers style rest).bind fun rest => ?_
    exact pure (first :: rest) (Container.mapLines.all (· + lines))

end

end Relocates

/-- A tree on other lines is adapted as before, up to its lines. -/
theorem Container.adapt_mapLines (style : BodyStyle) (tree : Container) (lines : Int) :
    (tree.mapLines (· + lines)).adapt style =
      ((tree.adapt style).1.mapLines (· + lines), (tree.adapt style).2.relocate lines) :=
  Relocates.container style tree {}

/-! ## Specs -/

namespace Spec

variable {change : Int → Int}

/-- A test case on other lines is written the same. -/
theorem testCase_mapLines (fixture : Text) (found : TestCase) :
    testCase fixture (found.mapLines change) = testCase fixture found := by
  have bodies : ∀ code : Option Code,
      (code.map (Code.mapLine change)).map (·.body) = code.map (·.body) := by
    intro code
    cases code <;> rfl
  have ofHooks : hooks fixture (found.mapLines change) = hooks fixture found := by
    simp only [hooks, TestCase.mapLines, bodies]
  unfold testCase
  rw [ofHooks]
  simp only [TestCase.mapLines, List.flatMap_map]
  rfl

mutual

/-- A container on other lines is written the same. -/
theorem container_mapLines (fixture : Text) (tree : Container) :
    container fixture (tree.mapLines change) = container fixture tree := by
  cases tree with
  | suite name children =>
    simp only [Container.mapLines, container, containers_mapLines fixture children]
  | testCase inner =>
    simp only [Container.mapLines, container, testCase_mapLines]

/-- Containers on other lines are written the same. -/
theorem containers_mapLines (fixture : Text) (trees : List Container) :
    containers fixture (Container.mapLines.all change trees) = containers fixture trees := by
  cases trees with
  | nil => rfl
  | cons first rest =>
    simp only [Container.mapLines.all, containers, container_mapLines fixture first,
      containers_mapLines fixture rest]

end

theorem write_mapLines (style : Style) (tree : Container) :
    write style (tree.mapLines change) = write style tree := by
  rw [write, write, container_mapLines]

end Spec

end JasmineConversion
