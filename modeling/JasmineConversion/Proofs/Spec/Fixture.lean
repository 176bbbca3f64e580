import JasmineConversion.Proofs.Spec.Blocks
import JasmineConversion.Proofs.Suite.Visitor

/-! # The declaration of the fixture

The bodies of a test case refer to the fixture in place of the test case itself. The block of a test
case declares the fixture if it has code to run before its tests or is built directly, and before
anything else. A plain test case without such code has no declaration, whatever its bodies refer to.
-/

namespace JasmineConversion

open Text

/-! ## What adapting leaves -/

theorem TestCase.bare_adapt (style : BodyStyle) (found : TestCase) :
    (found.adapt style).1.bare = found.bare :=
  (Orderly.testCase style found).bodies {}

theorem TestCase.constructorName_adapt (style : BodyStyle) (found : TestCase) :
    (found.adapt style).1.constructorName = found.constructorName :=
  congrArg (·.constructorName) (found.bare_adapt style)

/-- Adapting a test case keeps whether it has a hook before its tests. -/
theorem TestCase.isSome_setUp_adapt (style : BodyStyle) (found : TestCase) :
    (found.adapt style).1.setUp.isSome = found.setUp.isSome := by
  have same := congrArg (fun testCase => testCase.setUp.isSome) (found.bare_adapt style)
  simpa only [TestCase.bare, Option.isSome_map] using same

namespace Spec

open Line

/-- The statement that declares the fixture. -/
def declaration (fixture : Text) : Text :=
  "var ".toList ++ fixture ++ [';']

/-- The block of a test case declares the fixture before anything else. -/
def Declares (fixture : Text) (found : TestCase) : Prop :=
  ∃ rest, inside fixture found = ofText (declaration fixture) ++ rest

/-- What is set apart starts with an empty line. -/
theorem head?_flatMap_apart {α : Type} (values : List α) (code : α → List Line) :
    (values.flatMap fun value => apart (code value)).head? =
      if values.isEmpty then none else some ⟨0, []⟩ := by
  cases values <;> rfl

/-- Without code to run before the tests, a block starts with the code to run after them or with an
empty line. -/
theorem head?_inside {fixture : Text} {found : TestCase} (absent : hookBody? found found.setUp = none) :
    ∀ line ∈ (inside fixture found).head?,
      line = ⟨0, "afterEach( function() \x7b".toList⟩ ∨ line = ⟨0, []⟩ := by
  unfold inside
  rw [hooks_eq, absent]
  cases hookBody? found found.tearDown with
  | some body =>
    have after : (afterEach fixture found.constructorName body).head? =
        some ⟨0, "afterEach( function() \x7b".toList⟩ := rfl
    simp [List.head?_append, after]
  | none =>
    intro line isHead
    simp only [Option.map_none, Option.getD_none, List.nil_append, List.head?_append,
      head?_flatMap_apart] at isHead
    split at isHead <;> try split at isHead
    all_goals simp_all

/-- The declaration of a fixture starts with its word. -/
theorem exists_head?_declaration (fixture : Text) (rest : List Line) :
    ∃ first, (ofText (declaration fixture) ++ rest).head? = some ⟨0, 'v' :: first⟩ := by
  obtain ⟨first, more, split⟩ := List.exists_cons_of_ne_nil (lines_ne_nil ("ar ".toList ++ fixture ++ [';']))
  have whole : lines (declaration fixture) = ('v' :: first) :: more := lines_cons_of_ne (by decide) split
  exact ⟨first, by simp [ofText, whole]⟩

/-- The hook before each test is written if there is one, or a constructor. -/
theorem isSome_hookBody?_setUp (found : TestCase) :
    (hookBody? found found.setUp).isSome = true ↔
      found.setUp.isSome = true ∨ found.constructorName.isSome = true := by
  unfold hookBody?
  split
  · next direct => simp [direct]
  · next plain => simp [plain]

/-- A test case declares the fixture if and only if its block has code that runs before its tests. -/
theorem declares_iff {fixture : Text} {found : TestCase} :
    Declares fixture found ↔ found.setUp.isSome = true ∨ found.constructorName.isSome = true := by
  rw [← isSome_hookBody?_setUp]
  cases hasBody : hookBody? found found.setUp with
  | some body =>
    refine iff_of_true ?_ rfl
    unfold Declares inside
    rw [hooks_eq, hasBody]
    simp only [Option.map_some, Option.getD_some, beforeEach, List.append_assoc]
    exact ⟨_, rfl⟩
  | none =>
    refine iff_of_false ?_ (by simp)
    rintro ⟨rest, same⟩
    obtain ⟨first, isHead⟩ := exists_head?_declaration fixture rest
    rw [← same] at isHead
    rcases head?_inside hasBody _ isHead with other | other <;> simp at other

/-- The declaration stands in the block of the test case. -/
theorem Declares.inside {fixture : Text} {found : TestCase} (declares : Declares fixture found) :
    Inside (ofText (declaration fixture)) 1 (testCase fixture found) := by
  obtain ⟨rest, same⟩ := declares
  have here : Inside (ofText (declaration fixture)) 0 (Spec.inside fixture found) :=
    same ▸ (Inside.refl _).append_right rest
  exact here.inBlock _ _

/-- A declaration on one line is found in the text of the block. -/
theorem Declares.exists_renderAll {fixture : Text} {found : TestCase} (declares : Declares fixture found)
    (single : '\n' ∉ fixture) (unit : Text) (level : Int) :
    ∃ front back, renderAll unit level (testCase fixture found) = front ++ declaration fixture ++ back := by
  have oneLine : '\n' ∉ declaration fixture := by
    simp [declaration, single]
  have solid : declaration fixture ≠ [] := List.cons_ne_nil _ _
  obtain ⟨front, back, laidOut, -⟩ :=
    declares.inside.exists_renderAll (by simp [ofText, lines_ne_nil]) unit level
  rw [ofText_of_not_mem oneLine] at laidOut
  refine ⟨front ++ repeated (level + (1 : Nat) + (0 : Nat)).toNat unit, back, ?_⟩
  rw [laidOut, renderAll, List.map_singleton, render, if_neg (by simpa using solid)]
  simp [unlines, join]

/-- Adapting and writing a tree gives each of its test cases a block of its own. The block declares the
fixture, before anything else, if and only if the test case has code to run before its tests or is
built directly. -/
theorem fixture_declared_iff {marker : Content} {unit fixture : Text} {level : Int} {tree : Container}
    (unfailed : (tree.adapt ⟨fixture, marker⟩).2.failure = none) {found : TestCase}
    (member : found ∈ tree.cases) :
    ∃ depth front back, write ⟨unit, level, fixture⟩ (tree.adapt ⟨fixture, marker⟩).1 =
        front ++ renderAll unit (level + (depth : Nat))
          (testCase fixture (found.adapt ⟨fixture, marker⟩).1) ++ back ∧
      (front = [] ∨ endsWith ['\n'] front = true) ∧ (back = [] ∨ startsWith ['\n'] back = true) ∧
      (Declares fixture (found.adapt ⟨fixture, marker⟩).1 ↔
        found.setUp.isSome = true ∨ found.constructorName.isSome = true) ∧
      (found.setUp.isSome = true ∨ found.constructorName.isSome = true → '\n' ∉ fixture →
        ∃ before behind, renderAll unit (level + (depth : Nat))
          (testCase fixture (found.adapt ⟨fixture, marker⟩).1) =
            before ++ declaration fixture ++ behind) := by
  have declares : Declares fixture (found.adapt ⟨fixture, marker⟩).1 ↔
      found.setUp.isSome = true ∨ found.constructorName.isSome = true := by
    rw [declares_iff, found.isSome_setUp_adapt, found.constructorName_adapt]
  have adapted := (Casewise.container ⟨fixture, marker⟩ tree).result unfailed
  obtain ⟨depth, inside⟩ := exists_inside_container fixture
    (fun inner => (inner.adapt ⟨fixture, marker⟩).1) member
  rw [← adapted] at inside
  have nonempty : testCase fixture (found.adapt ⟨fixture, marker⟩).1 ≠ [] := block_ne_nil _ _ _
  obtain ⟨front, back, laidOut, fresh, ended⟩ := inside.exists_renderAll nonempty unit level
  exact ⟨depth, front, back, laidOut, fresh, ended, declares, fun code single =>
    (declares.mpr code).exists_renderAll single unit _⟩

/-- A suite with a plain test case and one that is built directly, both with references to themselves. -/
def fixtureSuite : Container :=
  .suite "tests".toList
    [.testCase
      { name := "plain".toList
        setUp := some ⟨"this.x = 1;".toList, 2⟩
        tests := [⟨"reads".toList, ⟨"use( this.x );".toList, 5⟩⟩] },
    .testCase
      { name := "direct".toList
        constructorName := some "tests.Direct".toList
        tests := [⟨"calls".toList, ⟨"this.run();".toList, 9⟩⟩] }]

/-- Of the test cases of the suite, exactly those with a hook or a constructor declare the fixture. -/
theorem fixture_declared_in_fixtureSuite :
    (fixtureSuite.adapt ⟨"ctx".toList, .text "JsMockito".toList⟩).2.failure = none ∧
      ∀ found ∈ fixtureSuite.cases, ∃ depth front back,
        write ⟨['\t'], 1, "ctx".toList⟩ (fixtureSuite.adapt ⟨"ctx".toList, .text "JsMockito".toList⟩).1 =
          front ++ renderAll ['\t'] (1 + (depth : Nat))
            (testCase "ctx".toList (found.adapt ⟨"ctx".toList, .text "JsMockito".toList⟩).1) ++ back ∧
        Declares "ctx".toList (found.adapt ⟨"ctx".toList, .text "JsMockito".toList⟩).1 := by
  have unfailed : (fixtureSuite.adapt ⟨"ctx".toList, .text "JsMockito".toList⟩).2.failure = none :=
    Option.isNone_iff_eq_none.mp (by decide +kernel)
  refine ⟨unfailed, fun found member => ?_⟩
  obtain ⟨depth, front, back, laidOut, -, -, declares, -⟩ :=
    @fixture_declared_iff _ ['\t'] _ 1 _ unfailed _ member
  refine ⟨depth, front, back, laidOut, declares.mpr ?_⟩
  rcases List.mem_cons.mp member with rfl | member
  · exact .inl rfl
  · rw [List.mem_singleton.mp member]
    exact .inr rfl

/-- A plain test case without code to run before its only test, which refers to the test case. -/
def undeclaredCase : TestCase :=
  { name := "tests.b".toList, tests := [⟨"x".toList, ⟨"this.run();".toList, 1⟩⟩] }

/-- Without code to run before the tests, the fixture that takes the place of `this` is not declared. -/
theorem fixture_not_declared_in_undeclaredCase :
    (undeclaredCase.adapt {}).2.failure = none ∧
      (undeclaredCase.adapt {}).1.tests.map (·.code.body) = ["thisSuite.run();".toList] ∧
      write {} ((Container.testCase undeclaredCase).adapt {}).1 =
        ("describe( \"tests.b\", function() \x7b\n\n\tit( \"x\", function() \x7b\n" ++
          "\t\tthisSuite.run();\n\t\x7d );\n\n\x7d );").toList ∧
      occursIn "var thisSuite;".toList (write {} ((Container.testCase undeclaredCase).adapt {}).1) = false := by
  refine ⟨Option.isNone_iff_eq_none.mp (by decide +kernel), ?_, ?_, ?_⟩ <;> decide +kernel

end Spec

end JasmineConversion
