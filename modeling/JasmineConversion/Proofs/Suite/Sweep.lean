import JasmineConversion.Proofs.Body.Reports
import JasmineConversion.Proofs.Settings.Validation
import JasmineConversion.Proofs.Suite.Orderly
import JasmineConversion.Proofs.Suite.Pattern

/-! # An adaptation as a sweep over code

The pieces of code of a tree stand one after the other: in each test case the hooks, the helper methods
and the tests. An adaptation sweeps over them from left to right and stops at the first one that cannot
be rewritten. Those before it are rewritten as a whole, and it and those after it are left as they were.
-/

namespace JasmineConversion

open Text

/-! ## Code in its place -/

/-- What code of a test case is for. -/
inductive CodeRole where
  | setUp
  | tearDown
  | helper
  | test
  deriving DecidableEq

/-- Whether code runs around the tests. -/
def CodeRole.isHook : CodeRole → Bool
  | setUp => true
  | tearDown => true
  | helper => false
  | test => false

/-- Code of a test case in its place: what it is for, whether the test case is directly constructed, and
the names of the helper methods of the test case. -/
structure PlacedCode where
  role : CodeRole
  direct : Bool
  names : List Text
  code : Code

namespace PlacedCode

/-- The body that a rewriting starts from. The hooks of a directly constructed test case lose their
inherited calls first. -/
def body (placed : PlacedCode) : Text :=
  if placed.role.isHook && placed.direct then
    (placed.code.setBody (Body.dropSuperCall placed.code.body)).body
  else placed.code.body

/-- The rewritten body of placed code. -/
def rewrite (style : BodyStyle) (placed : PlacedCode) : Except SourceError Text :=
  if placed.role.isHook then style.hookBody placed.names placed.body
  else (style.testBody placed.names placed.body).2

/-- Placed code with its body rewritten, if it can be. -/
def rewritten (style : BodyStyle) (placed : PlacedCode) : PlacedCode :=
  match placed.rewrite style with
  | .ok raw => { placed with code := placed.code.setBody raw }
  | .error _ => placed

end PlacedCode

namespace TestCase

/-- Code in its place in a test case. -/
def place (owner : TestCase) (role : CodeRole) (code : Code) : PlacedCode :=
  ⟨role, owner.constructorName.isSome, owner.helpers.map (·.name), code⟩

/-- The hooks of a test case in their places. -/
def placedHooks (owner : TestCase) (setUp tearDown : Option Code) : List PlacedCode :=
  setUp.toList.map (owner.place .setUp) ++ tearDown.toList.map (owner.place .tearDown)

/-- The helper methods and the tests of a test case in their places. -/
def placedBodies (owner : TestCase) (helpers : List Helper) (tests : List Test) : List PlacedCode :=
  helpers.map (fun helper => owner.place .helper helper.code) ++
    tests.map fun test => owner.place .test test.code

/-- The code of a test case in the order of a visit. -/
def placed (found : TestCase) : List PlacedCode :=
  found.placedHooks found.setUp found.tearDown ++ found.placedBodies found.helpers found.tests

end TestCase

/-- The code of a tree in the order of a visit. -/
def Container.placed (tree : Container) : List PlacedCode :=
  tree.cases.flatMap TestCase.placed

/-! ## Sweeps -/

/-- Code before and after a sweep over it, and the failure that stopped the sweep. -/
inductive Swept (style : BodyStyle) : List PlacedCode → List PlacedCode → Option SourceError → Prop
  | done : Swept style [] [] none
  | rewritten {first : PlacedCode} {raw : Text} {rest after : List PlacedCode}
      {failure : Option SourceError}
      (adapted : first.rewrite style = .ok raw) (further : Swept style rest after failure) :
      Swept style (first :: rest) (first.rewritten style :: after) failure
  | failed {first : PlacedCode} {error : SourceError} {rest : List PlacedCode}
      (refused : first.rewrite style = .error error) :
      Swept style (first :: rest) (first :: rest) (some (error.relocate (first.code.line - 1)))

namespace Swept

variable {style : BodyStyle} {before after before' after' : List PlacedCode}
  {failure : Option SourceError}

/-- Two sweeps without a failure in the first are one sweep. -/
theorem append (first : Swept style before after none) (second : Swept style before' after' failure) :
    Swept style (before ++ before') (after ++ after') failure := by
  generalize ended : none = stopped at first
  induction first with
  | done => exact second
  | rewritten adapted _ ih => exact .rewritten adapted (ih ended)
  | failed => cases ended

/-- A sweep that fails leaves all that follows as it is. -/
theorem append_failed {error : SourceError} (first : Swept style before after (some error))
    (rest : List PlacedCode) : Swept style (before ++ rest) (after ++ rest) (some error) := by
  generalize ended : some error = stopped at first
  induction first with
  | done => cases ended
  | rewritten adapted _ ih => exact .rewritten adapted (ih ended)
  | failed refused => exact .failed refused

/-- A sweep that fails has rewritten all code before the one where it fails. -/
theorem exists_failing {error : SourceError} (swept : Swept style before after (some error)) :
    ∃ done failing rest inner, before = done ++ failing :: rest ∧
      (∀ placed ∈ done, ∃ raw, placed.rewrite style = .ok raw) ∧
      failing.rewrite style = .error inner ∧ error = inner.relocate (failing.code.line - 1) ∧
      after = done.map (·.rewritten style) ++ failing :: rest := by
  generalize ended : some error = stopped at swept
  induction swept with
  | done => cases ended
  | rewritten adapted _ ih =>
    obtain ⟨done, failing, rest, inner, rfl, succeed, refused, same, rfl⟩ := ih ended
    exact ⟨_ :: done, failing, rest, inner, rfl, List.forall_mem_cons.mpr ⟨⟨_, adapted⟩, succeed⟩,
      refused,
      same, rfl⟩
  | failed refused =>
    cases ended
    exact ⟨[], _, _, _, rfl, fun _ none => (List.not_mem_nil none).elim, refused, rfl, rfl⟩

end Swept

/-- A step that sweeps over the code of its value. After a failure it leaves its value as it is. -/
structure Sweeps {α : Type} (style : BodyStyle) (placed : α → List PlacedCode) (step : Adapting α)
    (kept : α) : Prop where
  halted : ∀ trail : Trail, trail.failure.isSome = true → step trail = (kept, trail)
  swept : ∀ log, Swept style (placed kept) (placed (step ⟨log, none⟩).1) (step ⟨log, none⟩).2.failure

namespace Sweeps

variable {α β γ : Type} {style : BodyStyle}

/-- A changed step sweeps if the change keeps the bodies. -/
theorem map {placed : α → List PlacedCode} {placed' : β → List PlacedCode} {step : Adapting α} {kept : α}
    (first : Sweeps style placed step kept) (change : α → β)
    (same : ∀ value, placed' (change value) = placed value) :
    Sweeps style placed' (step >>= fun value => pure (change value)) (change kept) := by
  refine ⟨fun trail failed => ?_, fun log => ?_⟩
  · exact congrArg (fun result : α × Trail => (change result.1, result.2)) (first.halted trail failed)
  · have swept := first.swept log
    rw [← same, ← same] at swept
    exact swept

/-- Two sweeps one after the other are a sweep over the code of both values. -/
theorem both {placed : α → List PlacedCode} {placed' : β → List PlacedCode} {whole : γ → List PlacedCode}
    {step : Adapting α} {other : Adapting β} {kept : α} {kept' : β}
    (first : Sweeps style placed step kept)
    (second : Sweeps style placed' other kept') (build : α → β → γ)
    (parts : ∀ value value', whole (build value value') = placed value ++ placed' value') :
    Sweeps style whole (step >>= fun value => other >>= fun value' => pure (build value value'))
      (build kept kept') := by
  refine ⟨fun trail failed => ?_, fun log => ?_⟩
  · change (build (step trail).1 (other (step trail).2).1, (other (step trail).2).2) = _
    rw [first.halted trail failed, second.halted trail failed]
  · change Swept style _ (whole (build (step ⟨log, none⟩).1 (other (step ⟨log, none⟩).2).1))
      (other (step ⟨log, none⟩).2).2.failure
    rw [parts, parts]
    have swept := first.swept log
    generalize step ⟨log, none⟩ = result at swept ⊢
    obtain ⟨value, log, failure⟩ := result
    cases failure with
    | none => exact swept.append (second.swept log)
    | some error =>
      rw [second.halted _ rfl]
      exact swept.append_failed _

/-- Steps for the values of a list sweep if each of them does. -/
theorem mapM {placed : α → PlacedCode} {step : α → Adapting α}
    (each : ∀ value, Sweeps style (fun value => [placed value]) (step value) value) (values : List α) :
    Sweeps style (List.map placed) (values.mapM step) values := by
  induction values with
  | nil => exact ⟨fun _ _ => rfl, fun _ => .done⟩
  | cons value values ih =>
    rw [List.mapM_cons]
    exact (each value).both ih (· :: ·) fun _ _ => rfl

/-- What is noted before a sweep makes no difference to it. -/
theorem noted {placed : α → List PlacedCode} {step : Adapting α} {kept : α}
    (sweeps : Sweeps style placed step kept) (message : String) :
    Sweeps style placed (Adapting.note message >>= fun _ => step) kept := by
  refine ⟨fun trail failed => ?_, fun log => sweeps.swept (log ++ _)⟩
  change step (if trail.failure.isSome then trail else _) = _
  rw [if_pos failed]
  exact sweeps.halted trail failed

/-- Adapting a body of a test case as it is rewritten sweeps over its code. -/
theorem code (owner : TestCase) (role : CodeRole)
    {adapt : Text → List LogRecord × Except SourceError Text}
    {found : Code} (rewrites : (adapt found.body).2 = (owner.place role found).rewrite style) :
    Sweeps style (fun code => [owner.place role code]) (Adapting.code adapt found) found := by
  refine ⟨(Orderly.code adapt found).halted, fun log => ?_⟩
  rw [Adapting.code_apply, if_neg (by simp)]
  cases ran : (adapt found.body).2 with
  | ok raw =>
    have adapted : (owner.place role found).rewrite style = .ok raw := rewrites ▸ ran
    have result : (owner.place role found).rewritten style = owner.place role (found.setBody raw) := by
      rw [PlacedCode.rewritten, adapted]
      rfl
    exact result ▸ .rewritten adapted .done
  | error error => exact .failed (rewrites ▸ ran)

/-- Adapting helper methods sweeps their bodies. -/
theorem helpers (owner : TestCase) :
    Sweeps style (List.map fun helper => owner.place .helper helper.code)
      (owner.helpers.mapM (Adapting.helper style (owner.helpers.map (·.name)))) owner.helpers :=
  mapM (fun found => (code owner .helper rfl).map (fun code => { found with code }) fun _ => rfl)
    owner.helpers

/-- Adapting tests sweeps their bodies. -/
theorem tests (owner : TestCase) :
    Sweeps style (List.map fun test => owner.place .test test.code)
      (owner.tests.mapM (Adapting.test style (owner.helpers.map (·.name)))) owner.tests :=
  mapM (fun found => (code owner .test rfl).map (fun code => { found with code }) fun _ => rfl)
    owner.tests

end Sweeps

/-! ## Hooks -/

/-- A hook of a test case without its inherited call, if the test case is directly constructed. -/
def TestCase.ownHook (owner : TestCase) (code : Code) : Code :=
  if owner.constructorName.isSome then code.setBody (Body.dropSuperCall code.body) else code

namespace Adapting

/-- Adapts the helper methods and the tests of a test case, and gives it other hooks. -/
def bodies (style : BodyStyle) (names : List Text) (found : TestCase) (setUp tearDown : Option Code) :
    Adapting TestCase := do
  let helpers ← found.helpers.mapM (helper style names)
  let tests ← found.tests.mapM (test style names)
  return { found with setUp, tearDown, helpers, tests }

/-- A step that is known can be put in front of another. -/
theorem bind_of_apply {α β : Type} {step : Adapting α} {next : α → Adapting β} {trail between : Trail}
    {value : α}
    (ran : step trail = (value, between)) : (step >>= next) trail = next value between := by
  change next (step trail).1 (step trail).2 = _
  rw [ran]

/-- A hook that cannot fail is changed. -/
theorem hook_apply (change : Text → Text) (found : Option Code) (log : List LogRecord) :
    hook (fun text => .ok (change text)) found ⟨log, none⟩ =
      (found.map fun code => code.setBody (change code.body), ⟨log, none⟩) := by
  cases found with
  | none => rfl
  | some found =>
    have ran := code_apply (fun text => ([], .ok (change text))) found ⟨log, none⟩
    rw [if_neg (by simp), List.append_nil] at ran
    exact congrArg (fun result : Code × Trail => (some result.1, result.2)) ran

/-- The own hooks of a test case are looked at without a failure. -/
theorem ownHooks_apply (found : TestCase) (log : List LogRecord) :
    ownHooks found ⟨log, none⟩ =
      ((found.setUp.map found.ownHook, found.tearDown.map found.ownHook), ⟨log, none⟩) := by
  unfold ownHooks
  by_cases direct : found.constructorName.isSome = true
  · have own : found.ownHook = fun code => code.setBody (Body.dropSuperCall code.body) := by
      funext code
      rw [TestCase.ownHook, if_pos direct]
    have setUp := hook_apply Body.dropSuperCall found.setUp log
    have tearDown := hook_apply Body.dropSuperCall found.tearDown log
    rw [if_pos direct, own]
    change (((hook _ found.setUp ⟨log, none⟩).1,
      (hook _ found.tearDown (hook _ found.setUp ⟨log, none⟩).2).1),
      (hook _ found.tearDown (hook _ found.setUp ⟨log, none⟩).2).2) = _
    rw [setUp, tearDown]
  · have own : found.ownHook = id := by
      funext code
      rw [TestCase.ownHook, if_neg direct]
      rfl
    rw [if_neg direct, own, Option.map_id_apply, Option.map_id_apply]
    rfl

/-- Where hooks can be rewritten, they are when a test case is adapted, and what is left to do starts
without a failure. -/
theorem parts_apply {style : BodyStyle} {names : List Text} {change : Text → Text}
    (adapted : ∀ body, style.hookBody names body = .ok (change body)) (found : TestCase)
    (log : List LogRecord) :
    parts style names found ⟨log, none⟩ =
      bodies style names found
        ((found.setUp.map found.ownHook).map fun code => code.setBody (change code.body))
        ((found.tearDown.map found.ownHook).map fun code => code.setBody (change code.body))
        ⟨log, none⟩ := by
  have hooked : style.hookBody names = fun text => .ok (change text) := funext adapted
  unfold parts
  rw [hooked]
  refine (bind_of_apply (ownHooks_apply found log)).trans ?_
  refine (bind_of_apply (hook_apply change _ log)).trans ?_
  exact bind_of_apply (hook_apply change _ log)

end Adapting

/-- A hook that is rewritten without its inherited call is rewritten in its place. -/
theorem Swept.ownHook {style : BodyStyle} {owner : TestCase} {role : CodeRole} {code : Code} {raw : Text}
    (isHook : role.isHook = true)
    (adapted : style.hookBody (owner.helpers.map (·.name)) (owner.ownHook code).body = .ok raw) :
    Swept style [owner.place role code] [owner.place role ((owner.ownHook code).setBody raw)] none := by
  have body : (owner.place role code).body = (owner.ownHook code).body := by
    rw [PlacedCode.body, TestCase.ownHook, TestCase.place, isHook, Bool.true_and]
    split <;> rfl
  have line : (owner.ownHook code).line = code.line := by
    rw [TestCase.ownHook]
    split <;> rfl
  have rewrites : (owner.place role code).rewrite style = .ok raw := by
    rw [PlacedCode.rewrite, body]
    exact (if_pos isHook).trans adapted
  have swept := Swept.rewritten rewrites .done
  rw [PlacedCode.rewritten, rewrites] at swept
  rw [Code.setBody, line]
  exact swept

/-- A hook that is adapted is swept. -/
theorem Swept.hook {style : BodyStyle} {owner : TestCase} {change : Text → Text} (role : CodeRole)
    (isHook : role.isHook = true)
    (adapted : ∀ body, style.hookBody (owner.helpers.map (·.name)) body = .ok (change body))
    (found : Option Code) :
    Swept style (found.toList.map (owner.place role))
      (((found.map owner.ownHook).map fun code => code.setBody (change code.body)).toList.map
        (owner.place role))
      none := by
  cases found with
  | none => exact .done
  | some code =>
    exact Swept.ownHook isHook (adapted _)

/-! ## Test cases and containers -/

/-- The bodies of an adapted test case are those of its hooks and its other members. -/
theorem TestCase.placed_of_bare {found after : TestCase} (same : after.bare = found.bare) :
    after.placed = found.placedHooks after.setUp after.tearDown ++
      found.placedBodies after.helpers after.tests := by
  have constructor : after.bare.constructorName = found.bare.constructorName := congrArg _ same
  have names : after.bare.helpers.map (·.name) = found.bare.helpers.map (·.name) :=
    congrArg (fun bare : TestCase => bare.helpers.map (·.name)) same
  simp only [TestCase.bare, List.map_map] at constructor names
  have place : after.place = found.place := by
    funext role code
    rw [TestCase.place, TestCase.place, constructor]
    exact congrArg (PlacedCode.mk role _ · code) names
  rw [TestCase.placed, TestCase.placedHooks, TestCase.placedBodies, place]
  rfl

namespace Sweeps

variable {style : BodyStyle}

/-- Adapting the other bodies of a test case sweeps them in order. -/
theorem bodies (owner : TestCase) (setUp tearDown : Option Code) :
    Sweeps style (fun result : TestCase => owner.placedBodies result.helpers result.tests)
      (Adapting.bodies style (owner.helpers.map (·.name)) owner setUp tearDown)
      { owner with setUp, tearDown } :=
  (helpers owner).both (tests owner) (fun helpers tests =>
    { owner with setUp, tearDown, helpers, tests })
    fun _ _ => rfl

/-- Adapting the parts of a test case sweeps over its hooks, which it never fails to rewrite, and then
over its helper methods and its tests. -/
theorem parts (fixture : '\\' ∉ style.fixture) {found : TestCase}
    (plain : ∀ helper ∈ found.helpers, '\\' ∉ helper.name) :
    Sweeps style TestCase.placed (Adapting.parts style (found.helpers.map (·.name)) found) found := by
  have names : ∀ name ∈ found.helpers.map (·.name), '\\' ∉ name := by
    simpa only [List.forall_mem_map] using plain
  obtain ⟨change, adapted⟩ := Classical.axiomOfChoice (BodyStyle.hookBody_succeeds fixture names)
  have orderly := Orderly.parts style (found.helpers.map (·.name)) found
  refine ⟨orderly.halted, fun log => ?_⟩
  rw [TestCase.placed_of_bare (orderly.bodies ⟨log, none⟩), Adapting.parts_apply adapted]
  have setUp := Swept.hook .setUp rfl adapted found.setUp
  have hooks := setUp.append (Swept.hook .tearDown rfl adapted found.tearDown)
  exact hooks.append ((bodies found _ _).swept log)

/-- Adapting a test case sweeps its bodies in order. -/
theorem testCase (fixture : '\\' ∉ style.fixture) {found : TestCase}
    (plain : ∀ helper ∈ found.helpers, '\\' ∉ helper.name) :
    Sweeps style TestCase.placed (Adapting.testCase style found) found :=
  (parts fixture plain).noted _

mutual

/-- Adapting a container sweeps its bodies in order. -/
theorem container (fixture : '\\' ∉ style.fixture) (tree : Container)
    (plain : ∀ inner ∈ tree.cases, ∀ helper ∈ inner.helpers, '\\' ∉ helper.name) :
    Sweeps style Container.placed (Adapting.container style tree) tree := by
  cases tree with
  | suite name children =>
    exact ((containers fixture children plain).map (Container.suite name) fun _ => rfl).noted _
  | testCase inner =>
    refine (testCase fixture (plain inner List.mem_cons_self)).map Container.testCase ?_
    intro inner
    exact List.append_nil inner.placed

/-- Adapting containers sweeps their bodies in order. -/
theorem containers (fixture : '\\' ∉ style.fixture) (trees : List Container)
    (plain : ∀ inner ∈ Container.cases.all trees, ∀ helper ∈ inner.helpers, '\\' ∉ helper.name) :
    Sweeps style (fun trees => (Container.cases.all trees).flatMap TestCase.placed)
      (Adapting.containers style trees) trees := by
  cases trees with
  | nil => exact ⟨fun _ _ => rfl, fun _ => .done⟩
  | cons first rest =>
    obtain ⟨here, further⟩ := List.forall_mem_append.mp plain
    refine (container fixture first here).both (containers fixture rest further) (· :: ·) ?_
    intro first rest
    exact List.flatMap_append

end

end Sweeps

/-! ## Failed adaptations -/

/-- An identifier holds no backslash. -/
theorem backslash_not_mem_of_identifier {name : Text} (parts : ∀ c ∈ name, isIdentifierPart c = true) :
    '\\' ∉ name := by
  intro member
  have part := parts _ member
  cases part.symm.trans (by decide : isIdentifierPart '\\' = false)

theorem backslash_not_mem_of_isIdentifier {name : Text} (named : SettingValue.isIdentifier name = true) :
    '\\' ∉ name :=
  backslash_not_mem_of_identifier (List.all_eq_true.mp (Bool.and_eq_true_iff.mp named).2)

/-- Only the body of a helper method or a test can be refused, with a reported error. -/
theorem PlacedCode.role_of_rewrite {style : BodyStyle} {placed : PlacedCode} {error : SourceError}
    (fixture : '\\' ∉ style.fixture) (plain : ∀ name ∈ placed.names, '\\' ∉ name)
    (refused : placed.rewrite style = .error error) :
    (placed.role = .helper ∨ placed.role = .test) ∧ error.Reported := by
  unfold rewrite at refused
  split at refused
  · obtain ⟨raw, adapted⟩ := BodyStyle.hookBody_succeeds fixture plain placed.body
    cases adapted.symm.trans refused
  · next other =>
    refine ⟨?_, BodyStyle.testBody_reports fixture plain placed.body refused⟩
    cases role : placed.role with
    | setUp => simp [role, CodeRole.isHook] at other
    | tearDown => simp [role, CodeRole.isHook] at other
    | helper => exact .inl rfl
    | test => exact .inr rfl

/-- A body is adapted with the names of its own test case. -/
theorem Container.names_of_mem_placed {tree : Container} {placed : PlacedCode}
    (member : placed ∈ tree.placed) :
    ∃ inner ∈ tree.cases, placed.names = inner.helpers.map (·.name) := by
  obtain ⟨inner, here, member⟩ := List.mem_flatMap.mp member
  refine ⟨inner, here, ?_⟩
  simp only [TestCase.placed, TestCase.placedHooks, TestCase.placedBodies, List.mem_append,
    List.mem_map] at member
  rcases member with (⟨_, -, rfl⟩ | ⟨_, -, rfl⟩) | ⟨_, -, rfl⟩ | ⟨_, -, rfl⟩ <;> rfl

/-- Where names have no backslash, an adaptation can only fail by code that is no hook, for a reason that
lies in its body. -/
theorem Container.exists_failing {style : BodyStyle} {tree : Container} {error : SourceError}
    (fixture : '\\' ∉ style.fixture)
    (plain : ∀ inner ∈ tree.cases, ∀ helper ∈ inner.helpers, '\\' ∉ helper.name)
    (failed : (tree.adapt style).2.failure = some error) :
    ∃ done failing rest inner, tree.placed = done ++ failing :: rest ∧
      (failing.role = .helper ∨ failing.role = .test) ∧
      (∀ placed ∈ done, ∃ raw, placed.rewrite style = .ok raw) ∧
      failing.rewrite style = .error inner ∧ inner.Reported ∧
        error = inner.relocate (failing.code.line - 1) ∧
      (tree.adapt style).1.placed = done.map (·.rewritten style) ++ failing :: rest := by
  have swept := (Sweeps.container fixture tree plain).swept []
  change Swept style tree.placed (tree.adapt style).1.placed (tree.adapt style).2.failure at swept
  rw [failed] at swept
  obtain ⟨done, failing, rest, inner, split, succeed, refused, same, after⟩ := swept.exists_failing
  obtain ⟨owner, here, names⟩ := Container.names_of_mem_placed
    (split ▸ List.mem_append_right _ List.mem_cons_self)
  have plainNames : ∀ name ∈ failing.names, '\\' ∉ name := by
    rw [names, List.forall_mem_map]
    exact plain owner here
  obtain ⟨role, reported⟩ := PlacedCode.role_of_rewrite fixture plainNames refused
  exact ⟨done, failing, rest, inner, split, role, succeed, refused, reported, same, after⟩

/-- An adaptation that fails has come to a helper method or a test that cannot be rewritten. All code
before it is rewritten as a whole, and it and all code after it are left as they were, and nothing but
bodies is changed. The error is that of the body, and its line is the line in the body, counted from the
line where the body starts. -/
theorem failed_adaptation_splits {style : BodyStyle} {tree : Container} {error : SourceError}
    (fixture : SettingValue.fixtureFault? style.fixture = none)
    (helpers : ∀ inner ∈ tree.cases, ∀ helper ∈ inner.helpers, Pattern.Identifier helper.name)
    (failed : (tree.adapt style).2.failure = some error) :
    ∃ done failing rest inner location,
      tree.placed = done ++ failing :: rest ∧ (failing.role = .helper ∨ failing.role = .test) ∧
      (∀ placed ∈ done, ∃ raw, placed.rewrite style = .ok raw) ∧ failing.rewrite style = .error inner ∧
      (tree.adapt style).1.placed = done.map (·.rewritten style) ++ failing :: rest ∧
      (tree.adapt style).1.bare = tree.bare ∧
      inner.location = some location ∧ error.cause = inner.cause ∧
      error.location = some ⟨location.line + (failing.code.line - 1), location.snippet⟩ := by
  have plainFixture := backslash_not_mem_of_isIdentifier (SettingValue.fixture_rule fixture)
  have plain : ∀ inner ∈ tree.cases, ∀ helper ∈ inner.helpers, '\\' ∉ helper.name :=
    fun inner here helper member => backslash_not_mem_of_identifier (helpers inner here helper member).2
  obtain ⟨done, failing, rest, inner, split, role, succeed, refused, ⟨lines, within⟩, same, after⟩ :=
    Container.exists_failing plainFixture plain failed
  obtain ⟨location, located, -⟩ := within.location
  refine ⟨done, failing, rest, inner, location, split, role, succeed, refused, after,
    (Orderly.container style tree).bodies {}, located, ?_, ?_⟩
  · rw [same]
    rfl
  · rw [same, SourceError.relocate, located, Option.map_some]

/-- A suite whose first test case is directly constructed and has a test with an unknown assertion, on
the second line of its body. -/
def brokenSuite : Container :=
  .suite "s".toList
    [.testCase
      { name := "a".toList
        constructorName := some "b.C".toList
        setUp := some ⟨"b.C.prototype.setUp.apply( this, arguments );\nthis.x = this.go();".toList, 3⟩
        helpers := [⟨"go".toList, [], ⟨"return this.x;".toList, 6⟩⟩]
        tests := [⟨"works".toList, ⟨"Y.Assert.isTrue( this.x );".toList, 9⟩⟩,
          ⟨"fails".toList, ⟨"this.go();\nY.Assert.isOdd( this.x );".toList, 12⟩⟩] },
    .testCase { name := "d".toList, tests := [⟨"waits".toList, ⟨"this.y();".toList, 20⟩⟩] }]

/-- The suite fails at its second test, and what is in front of it is rewritten. -/
theorem adaptation_of_brokenSuite_splits :
    ∃ error, (brokenSuite.adapt {}).2.failure = some error ∧ error.location.map (·.line) = some 13 ∧
      ∃ done failing rest inner location,
        brokenSuite.placed = done ++ failing :: rest ∧ (failing.role = .helper ∨ failing.role = .test) ∧
        (∀ placed ∈ done, ∃ raw, placed.rewrite {} = .ok raw) ∧ failing.rewrite {} = .error inner ∧
        (brokenSuite.adapt {}).1.placed = done.map (·.rewritten {}) ++ failing :: rest ∧
        (brokenSuite.adapt {}).1.bare = brokenSuite.bare ∧
        inner.location = some location ∧ error.cause = inner.cause ∧
        error.location = some ⟨location.line + (failing.code.line - 1), location.snippet⟩ := by
  have fails : (brokenSuite.adapt {}).2.failure.any (·.location.any (·.line = 13)) = true := by
    decide +kernel
  obtain ⟨error, failed, pointed⟩ := Option.any_eq_true _ _ |>.mp fails
  obtain ⟨location, located, line⟩ := Option.any_eq_true _ _ |>.mp pointed
  refine ⟨error, failed, ?_, failed_adaptation_splits (by decide) ?_ failed⟩
  · rw [located, Option.map_some, of_decide_eq_true line]
  · decide

end JasmineConversion
