import JasmineConversion.Proofs.Suite.Adaptation

/-! # Steps of an adaptation in their order

A step that comes after a failure has no effect, and one that comes after a success does what it would
do alone. Whatever a step does, it changes nothing but bodies.
-/

namespace JasmineConversion

open Text

/-! ## Test cases of a tree, and trees without bodies -/

/-- Code without its body. -/
def Code.bare (code : Code) : Code :=
  { code with body := [] }

/-- A test without its body. -/
def Test.bare (test : Test) : Test :=
  { test with code := test.code.bare }

/-- A helper method without its body. -/
def Helper.bare (helper : Helper) : Helper :=
  { helper with code := helper.code.bare }

/-- A test case without its bodies. -/
def TestCase.bare (testCase : TestCase) : TestCase :=
  { testCase with
    setUp := testCase.setUp.map Code.bare
    tearDown := testCase.tearDown.map Code.bare
    tests := testCase.tests.map Test.bare
    helpers := testCase.helpers.map Helper.bare }

namespace Container

/-- The test cases of a container, in the order of the source. -/
def cases : Container → List TestCase
  | suite _ children => all children
  | testCase inner => [inner]
where
  /-- The test cases of containers. -/
  all : List Container → List TestCase
    | [] => []
    | first :: rest => cases first ++ all rest

/-- A container with each of its test cases changed. -/
def mapCases (change : TestCase → TestCase) : Container → Container
  | suite name children => suite name (all children)
  | testCase inner => testCase (change inner)
where
  /-- Containers with each of their test cases changed. -/
  all : List Container → List Container
    | [] => []
    | first :: rest => mapCases change first :: all rest

/-- A container without its bodies. -/
def bare (tree : Container) : Container :=
  tree.mapCases TestCase.bare

end Container

/-- Adapts the parts of a test case that has helper methods with the given names. -/
def Adapting.parts (style : BodyStyle) (names : List Text) (found : TestCase) : Adapting TestCase := do
  let own ← ownHooks found
  let setUp ← hook (style.hookBody names) own.1
  let tearDown ← hook (style.hookBody names) own.2
  let helpers ← found.helpers.mapM (helper style names)
  let tests ← found.tests.mapM (test style names)
  return { found with setUp, tearDown, helpers, tests }

/-! ## Steps in their order -/

/-- A step of an adaptation in its place among others. After a failure it leaves its value and the
trail as they are, and without one it does what it would do alone. It changes nothing but bodies. -/
structure Orderly {α : Type} (bare : α → α) (step : Adapting α) (kept : α) : Prop where
  halted : ∀ trail : Trail, trail.failure.isSome = true → step trail = (kept, trail)
  started : ∀ log, step ⟨log, none⟩ = ((step {}).1, ⟨log ++ (step {}).2.log, (step {}).2.failure⟩)
  bodies : ∀ trail, bare (step trail).1 = bare kept

namespace Orderly

variable {α β : Type} {bare : α → α} {bare' : β → β}

/-- A value by itself is orderly. -/
theorem pure (value : α) : Orderly bare (Pure.pure value) value where
  halted _ _ := rfl
  started log := congrArg (fun log => (value, (⟨log, none⟩ : Trail))) (List.append_nil log).symm
  bodies _ := rfl

/-- Steps in their order make up a step, if what is built from their values depends on the rest of
these only through what is no body. -/
theorem bind {step : Adapting α} {next : α → Adapting β} {kept : α} (first : Orderly bare step kept)
    (build : α → β) (second : ∀ value, Orderly bare' (next value) (build value))
    (respects : ∀ value, bare value = bare kept → bare' (build value) = bare' (build kept)) :
    Orderly bare' (step >>= next) (build kept) := by
  refine ⟨?_, ?_, ?_⟩
  · intro trail failed
    change next (step trail).1 (step trail).2 = _
    rw [first.halted trail failed]
    exact (second kept).halted trail failed
  · intro log
    change next (step ⟨log, none⟩).1 (step ⟨log, none⟩).2 =
      ((next (step {}).1 (step {}).2).1, ⟨log ++ (next (step {}).1 (step {}).2).2.log,
        (next (step {}).1 (step {}).2).2.failure⟩)
    rw [first.started log]
    generalize step {} = result
    obtain ⟨value, inner, failure⟩ := result
    cases failure with
    | none =>
      dsimp only
      rw [(second value).started (log ++ inner), (second value).started inner]
      simp only [List.append_assoc]
    | some error =>
      dsimp only
      rw [(second value).halted _ rfl, (second value).halted _ rfl]
  · intro trail
    change bare' (next (step trail).1 (step trail).2).1 = _
    rw [(second _).bodies, respects _ (first.bodies trail)]

/-- A changed step is orderly if the change respects what is kept. -/
theorem map {step : Adapting α} {kept : α} (first : Orderly bare step kept) (change : α → β)
    (respects : ∀ value, bare value = bare kept → bare' (change value) = bare' (change kept)) :
    Orderly bare' (step >>= fun value => Pure.pure (change value)) (change kept) :=
  first.bind change (fun _ => pure _) respects

/-- Orderly steps for the values of a list are orderly. -/
theorem mapM {step : α → Adapting α} (each : ∀ value, Orderly bare (step value) value)
    (values : List α) :
    Orderly (List.map bare) (values.mapM step) values := by
  induction values with
  | nil => exact pure []
  | cons value values ih =>
    rw [List.mapM_cons]
    refine (each value).bind (· :: values) (fun first => ih.map (first :: ·) ?_) ?_
    · intro others same
      rw [List.map_cons, List.map_cons, same]
    · intro first same
      rw [List.map_cons, List.map_cons, same]

/-- A note is orderly. -/
theorem note (message : String) : Orderly id (Adapting.note message) () := by
  refine ⟨?_, ?_, fun _ => rfl⟩
  · intro trail failed
    rw [Adapting.note_apply, if_pos failed]
  · intro log
    rfl

/-- Adapting a body is orderly. -/
theorem code (adapt : Text → List LogRecord × Except SourceError Text) (found : Code) :
    Orderly Code.bare (Adapting.code adapt found) found := by
  refine ⟨?_, ?_, ?_⟩
  · intro trail failed
    rw [Adapting.code_apply, if_pos failed]
  · intro log
    rw [Adapting.code_apply, Adapting.code_apply]
    cases (adapt found.body).2 <;> rfl
  · intro trail
    rw [Adapting.code_apply]
    split
    · rfl
    · split <;> rfl

/-- Adapting a hook is orderly. -/
theorem hook (adapt : Text → Except SourceError Text) (found : Option Code) :
    Orderly (Option.map Code.bare) (Adapting.hook adapt found) found := by
  cases found with
  | none => exact pure none
  | some found =>
    refine (code (fun text => ([], adapt text)) found).map some ?_
    intro adapted same
    rw [Option.map_some, Option.map_some, same]

/-- Adapting a helper method is orderly. -/
theorem helper (style : BodyStyle) (names : List Text) (found : Helper) :
    Orderly Helper.bare (Adapting.helper style names found) found := by
  refine (code (style.testBody names) found.code).map (fun code => { found with code }) ?_
  intro adapted same
  rw [Helper.bare, Helper.bare, same]

/-- Adapting a test is orderly. -/
theorem test (style : BodyStyle) (names : List Text) (found : Test) :
    Orderly Test.bare (Adapting.test style names found) found := by
  refine (code (style.testBody names) found.code).map (fun code => { found with code }) ?_
  intro adapted same
  rw [Test.bare, Test.bare, same]

/-- Looking at the own hooks of a test case is orderly. -/
theorem ownHooks (found : TestCase) :
    Orderly (Prod.map (Option.map Code.bare) (Option.map Code.bare)) (Adapting.ownHooks found)
      (found.setUp, found.tearDown) := by
  unfold Adapting.ownHooks
  split
  · refine (hook _ found.setUp).bind (·, found.tearDown) (fun setUp => ?_) ?_
    · refine (hook _ found.tearDown).map (setUp, ·) ?_
      intro tearDown same
      rw [Prod.map_apply, Prod.map_apply, same]
    · intro setUp same
      rw [Prod.map_apply, Prod.map_apply, same]
  · exact pure _

/-- Adapting the parts of a test case is orderly. -/
theorem parts (style : BodyStyle) (names : List Text) (found : TestCase) :
    Orderly TestCase.bare (Adapting.parts style names found) found := by
  unfold Adapting.parts
  refine (ownHooks found).bind
    (fun own => { found with setUp := own.1, tearDown := own.2 }) (fun own => ?_) ?_
  · refine (hook _ own.1).bind
      (fun setUp => { found with setUp, tearDown := own.2 }) (fun setUp => ?_) ?_
    · refine (hook _ own.2).bind
        (fun tearDown => { found with setUp, tearDown }) (fun tearDown => ?_) ?_
      · refine (mapM (helper style names) found.helpers).bind
          (fun helpers => { found with setUp, tearDown, helpers }) (fun helpers => ?_) ?_
        · refine (mapM (test style names) found.tests).map
            (fun tests => { found with setUp, tearDown, helpers, tests }) ?_
          intro tests same
          simp only [TestCase.bare, same]
        · intro helpers same
          simp only [TestCase.bare, same]
      · intro tearDown same
        simp only [TestCase.bare, same]
    · intro setUp same
      simp only [TestCase.bare, same]
  · intro own same
    obtain ⟨setUp, tearDown⟩ := Prod.mk.inj same
    simp only [TestCase.bare, setUp, tearDown]

theorem testCase (style : BodyStyle) (found : TestCase) :
    Orderly TestCase.bare (Adapting.testCase style found) found :=
  (note _).bind (fun _ => found) (fun _ => parts style _ found) fun _ _ => rfl

/-- A suite around orderly children is orderly. -/
theorem suite {step : Adapting (List Container)} {children : List Container}
    (held : Orderly (Container.mapCases.all TestCase.bare) step children) (name : Text) :
    Orderly Container.bare (step >>= fun children => Pure.pure (Container.suite name children))
      (Container.suite name children) :=
  held.map (Container.suite name) fun _ same => congrArg (Container.suite name) same

/-- A container in front of orderly others is orderly. -/
theorem cons {step : Adapting (List Container)} {rest : List Container}
    (others : Orderly (Container.mapCases.all TestCase.bare) step rest) (first : Container) :
    Orderly (Container.mapCases.all TestCase.bare) (step >>= fun rest => Pure.pure (first :: rest))
      (first :: rest) :=
  others.map (first :: ·) fun _ same => congrArg (first.bare :: ·) same

mutual

/-- Adapting a container is orderly. -/
theorem container (style : BodyStyle) (tree : Container) :
    Orderly Container.bare (Adapting.container style tree) tree := by
  cases tree with
  | suite name children =>
    exact (note _).bind (fun _ => Container.suite name children)
      (fun _ => (containers style children).suite name) fun _ _ => rfl
  | testCase inner =>
    refine (testCase style inner).map Container.testCase ?_
    intro inner same
    exact congrArg Container.testCase same

/-- Adapting containers is orderly. -/
theorem containers (style : BodyStyle) (trees : List Container) :
    Orderly (Container.mapCases.all TestCase.bare) (Adapting.containers style trees) trees := by
  cases trees with
  | nil => exact pure []
  | cons first rest =>
    refine (container style first).bind (· :: rest) (fun first => (containers style rest).cons first) ?_
    intro adapted same
    exact congrArg (· :: Container.mapCases.all TestCase.bare rest) same

end

end Orderly

end JasmineConversion
