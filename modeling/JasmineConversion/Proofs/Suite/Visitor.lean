import JasmineConversion.Proofs.Suite.Orderly

/-! # Visiting a tree

A visitor adapts the bodies of a tree and remembers the helper methods of the test case that it came
to last. What it remembers from other test cases has no effect: every test case is adapted as it would
be alone, and nothing but bodies is changed.
-/

namespace JasmineConversion

open Text

/-! ## Test cases one by one -/

/-- A test case is adapted alone. -/
def TestCase.adapt (style : BodyStyle) (found : TestCase) : TestCase × Trail :=
  (Adapting.testCase style found).run {}

/-- A step that adapts test cases one by one. It succeeds if each of them can be adapted alone, and
gives then the value that is made up of these. -/
structure Casewise (style : BodyStyle) (cases : List TestCase) (step : Adapting α)
    (value : α) : Prop where
  succeeds : (step {}).2.failure = none ↔ ∀ inner ∈ cases, (inner.adapt style).2.failure = none
  result : (step {}).2.failure = none → (step {}).1 = value

namespace Casewise

variable {α β : Type} {bare : α → α} {bare' : β → β} {style : BodyStyle}
variable {cases cases' : List TestCase} {step : Adapting α} {value : α}

theorem pure (value : α) : Casewise style [] (Pure.pure value) value :=
  ⟨⟨fun _ _ ended => (List.not_mem_nil ended).elim, fun _ => rfl⟩, fun _ => rfl⟩

theorem note (message : String) : Casewise style [] (Adapting.note message) () :=
  ⟨⟨fun _ _ ended => (List.not_mem_nil ended).elim, fun _ => rfl⟩, fun _ => rfl⟩

/-- Two steps adapt the test cases of the first and then those of the second. -/
theorem bind {next : α → Adapting β} {build : α → β} {value' : β}
    (first : Casewise style cases step value) (second : Casewise style cases' (next value) value')
    (orderly : ∀ value, Orderly bare' (next value) (build value)) :
    Casewise style (cases ++ cases') (step >>= next) value' := by
  have ran : (step >>= next) {} = next (step {}).1 (step {}).2 := rfl
  have done := first.succeeds
  have made := first.result
  generalize step {} = result at ran done made
  obtain ⟨found, log, failure⟩ := result
  cases failure with
  | none =>
    have found_eq : found = value := made rfl
    rw [(orderly found).started log, found_eq] at ran
    refine ⟨?_, ?_⟩
    · rw [ran, List.forall_mem_append]
      exact ⟨fun ended => ⟨done.mp rfl, second.succeeds.mp ended⟩, fun all => second.succeeds.mpr all.2⟩
    · intro ended
      rw [ran] at ended ⊢
      exact second.result ended
  | some error =>
    rw [(orderly found).halted _ rfl] at ran
    have stuck : ((step >>= next) {}).2.failure ≠ none := by
      rw [ran]
      exact Option.some_ne_none error
    refine ⟨?_, fun ended => (stuck ended).elim⟩
    rw [List.forall_mem_append]
    exact ⟨fun ended => (stuck ended).elim, fun all => nomatch done.mpr all.1⟩

theorem map (first : Casewise style cases step value) (change : α → β) :
    Casewise style cases (step >>= fun value => Pure.pure (change value)) (change value) :=
  ⟨first.succeeds, fun ended => congrArg change (first.result ended)⟩

/-- Adapting a test case is casewise. -/
theorem testCase (style : BodyStyle) (found : TestCase) :
    Casewise style [found] (Adapting.testCase style found) (found.adapt style).1 :=
  ⟨⟨fun ended _ here => List.mem_singleton.mp here ▸ ended,
      fun all => all found (List.mem_singleton_self found)⟩,
    fun _ => rfl⟩

mutual

/-- Adapting a container is casewise. -/
theorem container (style : BodyStyle) (tree : Container) :
    Casewise style tree.cases (Adapting.container style tree)
      (tree.mapCases fun inner => (inner.adapt style).1) := by
  cases tree with
  | suite name children =>
    exact (note _).bind ((containers style children).map (Container.suite name))
      fun _ => (Orderly.containers style children).suite name
  | testCase inner => exact (testCase style inner).map Container.testCase

/-- Adapting containers is casewise. -/
theorem containers (style : BodyStyle) (trees : List Container) :
    Casewise style (Container.cases.all trees) (Adapting.containers style trees)
      (Container.mapCases.all (fun inner => (inner.adapt style).1) trees) := by
  cases trees with
  | nil => exact pure []
  | cons first rest =>
    exact (container style first).bind ((containers style rest).map (_ :: ·))
      fun first => (Orderly.containers style rest).cons first

end

end Casewise

/-! ## A visitor -/

/-- What a visitor carries along: the names of the helper methods that it remembers, and its trail. -/
structure Visitor where
  helpers : List Text := []
  trail : Trail := {}

/-- A step of a visit. -/
abbrev Visiting := StateM Visitor

namespace Visiting

/-- A step of an adaptation with the helper methods that the visitor remembers. -/
def adapting {α : Type} (step : List Text → Adapting α) : Visiting α := fun visitor =>
  ((step visitor.helpers visitor.trail).1,
    ⟨visitor.helpers, (step visitor.helpers visitor.trail).2⟩)

/-- Remembers the helper methods of a test case in place of all others, unless the adaptation has
failed. -/
def remember (found : TestCase) : Visiting Unit :=
  modify fun visitor =>
    if visitor.trail.failure.isSome then visitor
    else { visitor with helpers := found.helpers.map (·.name) }

/-- Visits the parts of a test case. Each of them is adapted with the helper methods that the visitor
remembers when it comes to it. -/
def parts (style : BodyStyle) (found : TestCase) : Visiting TestCase := do
  let own ← adapting fun _ => Adapting.ownHooks found
  let setUp ← adapting fun names => Adapting.hook (style.hookBody names) own.1
  let tearDown ← adapting fun names => Adapting.hook (style.hookBody names) own.2
  let helpers ← found.helpers.mapM fun helper => adapting fun names => Adapting.helper style names helper
  let tests ← found.tests.mapM fun test => adapting fun names => Adapting.test style names test
  return { found with setUp, tearDown, helpers, tests }

/-- Visits a test case. -/
def testCase (style : BodyStyle) (found : TestCase) : Visiting TestCase := do
  adapting fun _ => Adapting.note ("Transforming test case '" ++ str found.name ++ "'")
  remember found
  parts style found

mutual

/-- Visits a container and all it holds. -/
def container (style : BodyStyle) : Container → Visiting Container
  | .suite name children => do
    adapting fun _ => Adapting.note ("Transforming suite '" ++ str name ++ "'")
    return .suite name (← containers style children)
  | .testCase inner => return .testCase (← testCase style inner)

/-- Visits containers in order. -/
def containers (style : BodyStyle) : List Container → Visiting (List Container)
  | [] => return []
  | first :: rest => do
    let adapted ← container style first
    return adapted :: (← containers style rest)

end

/-- A visit that goes as an adaptation does while the visitor remembers given names, and leaves
these names remembered. -/
def Follows {α : Type} (names : List Text) (visit : Visiting α) (step : Adapting α) : Prop :=
  ∀ trail, visit ⟨names, trail⟩ = ((step trail).1, ⟨names, (step trail).2⟩)

namespace Follows

variable {α β : Type} {names : List Text}

theorem adapting (names : List Text) (step : List Text → Adapting α) :
    Follows names (Visiting.adapting step) (step names) :=
  fun _ => rfl

/-- Two visits follow two steps if each of them does. -/
theorem bind {visit : Visiting α} {step : Adapting α} {next : α → Visiting β} {next' : α → Adapting β}
    (first : Follows names visit step) (second : ∀ value, Follows names (next value) (next' value)) :
    Follows names (visit >>= next) (step >>= next') := by
  intro trail
  change next (visit ⟨names, trail⟩).1 (visit ⟨names, trail⟩).2 = _
  rw [first trail]
  exact second (step trail).1 (step trail).2

/-- Visits of the values of a list follow the steps for them. -/
theorem mapM {visit : α → Visiting β} {step : α → Adapting β}
    (each : ∀ value, Follows names (visit value) (step value)) (values : List α) :
    Follows names (values.mapM visit) (values.mapM step) := by
  induction values with
  | nil => exact fun _ => rfl
  | cons value values ih =>
    rw [List.mapM_cons, List.mapM_cons]
    exact (each value).bind fun _ => ih.bind fun _ _ => rfl

/-- The visit of the parts of a test case follows the adaptation with the names remembered. -/
theorem parts (style : BodyStyle) (names : List Text) (found : TestCase) :
    Follows names (Visiting.parts style found) (Adapting.parts style names found) := by
  refine (adapting names _).bind fun own => ?_
  refine (adapting names _).bind fun setUp => (adapting names _).bind fun tearDown => ?_
  refine (mapM (fun _ => adapting names _) found.helpers).bind fun helpers => ?_
  exact (mapM (fun _ => adapting names _) found.tests).bind fun tests _ => rfl

end Follows

/-- A visit that goes as an adaptation does, whatever the visitor remembers before it. -/
def Mirrors {α : Type} (visit : Visiting α) (step : Adapting α) : Prop :=
  ∀ names trail, ∃ names', visit ⟨names, trail⟩ = ((step trail).1, ⟨names', (step trail).2⟩)

namespace Mirrors

variable {α β : Type}

/-- Two visits mirror two steps if each of them does. -/
theorem bind {visit : Visiting α} {step : Adapting α} {next : α → Visiting β} {next' : α → Adapting β}
    (first : Mirrors visit step) (second : ∀ value, Mirrors (next value) (next' value)) :
    Mirrors (visit >>= next) (step >>= next') := by
  intro names trail
  obtain ⟨between, ran⟩ := first names trail
  obtain ⟨after, ended⟩ := second (step trail).1 between (step trail).2
  refine ⟨after, ?_⟩
  change next (visit ⟨names, trail⟩).1 (visit ⟨names, trail⟩).2 = _
  rw [ran]
  exact ended

theorem pure (value : α) : Mirrors (Pure.pure value) (Pure.pure value) :=
  fun names _ => ⟨names, rfl⟩

theorem note (message : String) :
    Mirrors (Visiting.adapting fun _ => Adapting.note message) (Adapting.note message) :=
  fun names _ => ⟨names, rfl⟩

/-- A visitor remembers no helper methods but those of the test case it is at, unless it has failed,
and then it leaves the test case as it is. -/
theorem remembered (style : BodyStyle) (found : TestCase) :
    Mirrors (remember found >>= fun _ => parts style found)
      (Adapting.parts style (found.helpers.map (·.name)) found) := by
  intro names trail
  by_cases failed : trail.failure.isSome = true
  · refine ⟨names, ?_⟩
    change parts style found (if trail.failure.isSome then ⟨names, trail⟩ else _) = _
    rw [if_pos failed, Follows.parts style names found trail]
    rw [(Orderly.parts style names found).halted trail failed,
      (Orderly.parts style _ found).halted trail failed]
  · refine ⟨found.helpers.map (·.name), ?_⟩
    change parts style found
      (if trail.failure.isSome then _ else ⟨found.helpers.map (·.name), trail⟩) = _
    rw [if_neg failed]
    exact Follows.parts style _ found trail

theorem testCase (style : BodyStyle) (found : TestCase) :
    Mirrors (Visiting.testCase style found) (Adapting.testCase style found) :=
  (note _).bind fun _ => remembered style found

mutual

/-- The visit of a container mirrors its adaptation. -/
theorem container (style : BodyStyle) (tree : Container) :
    Mirrors (Visiting.container style tree) (Adapting.container style tree) := by
  cases tree with
  | suite name children => exact (note _).bind fun _ => (containers style children).bind fun _ => pure _
  | testCase inner => exact (testCase style inner).bind fun _ => pure _

/-- The visit of containers mirrors their adaptation. -/
theorem containers (style : BodyStyle) (trees : List Container) :
    Mirrors (Visiting.containers style trees) (Adapting.containers style trees) := by
  cases trees with
  | nil => exact pure []
  | cons first rest =>
    exact (container style first).bind fun _ => (containers style rest).bind fun _ => pure _

end

end Mirrors

end Visiting

namespace Container

/-- A tree is visited by a visitor that remembers some helper methods from before. -/
def visit (style : BodyStyle) (names : List Text) (tree : Container) : Container × Visitor :=
  (Visiting.container style tree).run ⟨names, {}⟩

/-- What a visitor makes of a tree, whatever it remembers from before, is what adapting makes of it. -/
theorem visit_adapts (style : BodyStyle) (names : List Text) (tree : Container) :
    (tree.visit style names).1 = (tree.adapt style).1 ∧
      (tree.visit style names).2.trail = (tree.adapt style).2 := by
  obtain ⟨names', ran⟩ := Visiting.Mirrors.container style tree names {}
  exact ⟨congrArg Prod.fst ran, congrArg (·.2.trail) ran⟩

end Container

/-- A test case is visited alone, by a visitor that remembers nothing. -/
def TestCase.visit (style : BodyStyle) (found : TestCase) : TestCase × Visitor :=
  (Visiting.testCase style found).run {}

/-- What a visitor makes of a test case alone is what adapting makes of it. -/
theorem TestCase.visit_adapts (style : BodyStyle) (found : TestCase) :
    (found.visit style).1 = (found.adapt style).1 ∧
      (found.visit style).2.trail = (found.adapt style).2 := by
  obtain ⟨names', ran⟩ := Visiting.Mirrors.testCase style found [] {}
  exact ⟨congrArg Prod.fst ran, congrArg (·.2.trail) ran⟩

/-- A visit succeeds if and only if every test case of the tree can be visited alone, and makes of each
of them what such a visit makes of it: neither the other test cases nor what the visitor remembers
from before have a part in it. It changes nothing but bodies, and is what adapting the tree is. -/
theorem visit_is_casewise (style : BodyStyle) (names : List Text) (tree : Container) :
    ((tree.visit style names).2.trail.failure = none ↔
      ∀ inner ∈ tree.cases, (inner.visit style).2.trail.failure = none) ∧
    ((tree.visit style names).2.trail.failure = none →
      (tree.visit style names).1 = tree.mapCases fun inner => (inner.visit style).1) ∧
    (tree.visit style names).1.bare = tree.bare ∧
    tree.adapt style = ((tree.visit style names).1, (tree.visit style names).2.trail) := by
  obtain ⟨value, trail⟩ := tree.visit_adapts style names
  have alone : (fun inner : TestCase => (inner.visit style).1) = fun inner => (inner.adapt style).1 :=
    funext fun inner => (inner.visit_adapts style).1
  have ended (inner : TestCase) : (inner.visit style).2.trail = (inner.adapt style).2 :=
    (inner.visit_adapts style).2
  rw [value, trail, alone]
  simp only [ended]
  refine ⟨(Casewise.container style tree).succeeds, (Casewise.container style tree).result, ?_, trivial⟩
  exact (Orderly.container style tree).bodies {}

end JasmineConversion
