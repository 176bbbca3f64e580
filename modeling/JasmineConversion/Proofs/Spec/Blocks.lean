import JasmineConversion.Proofs.Spec.Tests
import JasmineConversion.Proofs.Suite.Orderly

/-! # Blocks inside a spec

A spec holds the blocks of all its test cases, and these hold the blocks of their tests. A block that
stands somewhere in generated code is rendered there as it would be alone, at the level of the code
and its own depth together.
-/

namespace JasmineConversion

open Text

namespace Line

/-- Lines that are some units deeper. -/
def lowered (depth : Nat) (code : List Line) : List Line :=
  code.map fun line => { line with depth := line.depth + depth }

@[simp] theorem lowered_zero (code : List Line) : lowered 0 code = code :=
  List.map_id code

theorem deeper_lowered (depth : Nat) (code : List Line) :
    deeper (lowered depth code) = lowered (depth + 1) code := by
  simp [deeper, lowered, Nat.add_assoc]

theorem lowered_lowered (first second : Nat) (code : List Line) :
    lowered second (lowered first code) = lowered (first + second) code := by
  simp [lowered, Nat.add_assoc]

@[simp] theorem deeper_append (first second : List Line) :
    deeper (first ++ second) = deeper first ++ deeper second :=
  List.map_append

@[simp] theorem lowered_append (depth : Nat) (first second : List Line) :
    lowered depth (first ++ second) = lowered depth first ++ lowered depth second :=
  List.map_append

/-- Lowered code is written as at a higher level. -/
theorem render_lowered (unit : Text) (level : Int) (depth : Nat) (code : List Line) :
    (lowered depth code).map (render unit level) = code.map (render unit (level + depth)) := by
  rw [lowered, List.map_map]
  apply List.map_congr_left
  intro line _
  have depths : level + ((line.depth + depth : Nat) : Int) = level + depth + line.depth := by omega
  simp only [Function.comp, render, depths]

/-- A block stands in code, some units deeper. -/
def Inside (block : List Line) (depth : Nat) (code : List Line) : Prop :=
  ∃ front back, code = front ++ lowered depth block ++ back

namespace Inside

variable {block code : List Line} {depth : Nat}

theorem refl (code : List Line) : Inside code 0 code :=
  ⟨[], [], by simp⟩

/-- A block stands in code with more in front. -/
theorem append_left (inside : Inside block depth code) (front : List Line) :
    Inside block depth (front ++ code) := by
  obtain ⟨before, behind, rfl⟩ := inside
  exact ⟨front ++ before, behind, by simp⟩

/-- A block stands in code with more behind. -/
theorem append_right (inside : Inside block depth code) (back : List Line) :
    Inside block depth (code ++ back) := by
  obtain ⟨before, behind, rfl⟩ := inside
  exact ⟨before, behind ++ back, by simp⟩

/-- A block stands in a block around it, one unit deeper. -/
theorem inBlock (inside : Inside block depth code) (head tail : Text) :
    Inside block (depth + 1) (Line.block head code tail) := by
  obtain ⟨before, behind, rfl⟩ := inside
  exact ⟨ofText head ++ deeper before, deeper behind ++ ofText tail, by
    simp [Line.block, deeper_lowered]⟩

/-- A block stands in the code of a list if it does in that of one value. -/
theorem flatMap {α : Type} {values : List α} {value : α} {each : α → List Line} (member : value ∈ values)
    (inside : Inside block depth (each value)) : Inside block depth (values.flatMap each) := by
  obtain ⟨before, behind, rfl⟩ := List.append_of_mem member
  rw [List.flatMap_append, List.flatMap_cons]
  exact (inside.append_right _).append_left _

/-- A block in a block in some code stands in this code. -/
theorem trans {outer : List Line} {more : Nat} (inside : Inside block depth code)
    (around : Inside code more outer) : Inside block (depth + more) outer := by
  obtain ⟨before, behind, rfl⟩ := inside
  obtain ⟨front, back, rfl⟩ := around
  exact ⟨front ++ lowered more before, lowered more behind ++ back, by simp [lowered_lowered]⟩

/-- A block inside code is rendered there on lines of its own, as it would be alone. -/
theorem exists_renderAll (inside : Inside block depth code) (nonempty : block ≠ []) (unit : Text)
    (level : Int) :
    ∃ front back, renderAll unit level code = front ++ renderAll unit (level + depth) block ++ back ∧
      (front = [] ∨ endsWith ['\n'] front = true) ∧ (back = [] ∨ startsWith ['\n'] back = true) := by
  obtain ⟨before, behind, rfl⟩ := inside
  have alone : block.map (render unit (level + depth)) ≠ [] := by simpa using nonempty
  obtain ⟨back, ended, apart⟩ : ∃ back, unlines (block.map (render unit (level + depth)) ++
      behind.map (render unit level)) = renderAll unit (level + depth) block ++ back ∧
      (back = [] ∨ startsWith ['\n'] back = true) := by
    cases last : behind.map (render unit level) with
    | nil => exact ⟨[], by simp [renderAll], .inl rfl⟩
    | cons line rest =>
      exact ⟨'\n' :: unlines (line :: rest), unlines_append alone (by simp), .inr (by simp)⟩
  unfold renderAll
  rw [List.map_append, List.map_append, render_lowered, List.append_assoc]
  cases first : before.map (render unit level) with
  | nil => exact ⟨[], back, ended, .inl rfl, apart⟩
  | cons line rest =>
    refine ⟨unlines (line :: rest) ++ ['\n'], back, ?_, .inr (endsWith_iff.mpr ⟨_, rfl⟩), apart⟩
    rw [unlines_append (by simp) (by simp [alone]), ended]
    simp [renderAll]

end Inside

end Line

namespace Spec

open Line

theorem inside_apart (code : List Line) : Inside code 0 (apart code) :=
  ((Inside.refl code).append_left _).append_right _

mutual

/-- The block of each test case of a tree stands in the spec for the tree. -/
theorem exists_inside_container (fixture : Text) (change : TestCase → TestCase) {tree : Container}
    {found : TestCase} (member : found ∈ tree.cases) :
    ∃ depth, Inside (testCase fixture (change found)) depth (container fixture (tree.mapCases change)) := by
  cases tree with
  | suite name children =>
    obtain ⟨depth, inside⟩ := exists_inside_containers fixture change member
    exact ⟨depth + 1, by simpa [Container.mapCases, container, titledBlock] using inside.inBlock _ _⟩
  | testCase inner =>
    rw [List.mem_singleton.mp member]
    exact ⟨0, by simpa [Container.mapCases, container] using Inside.refl _⟩

/-- The block of each test case stands in the spec for the trees that it is in. -/
theorem exists_inside_containers (fixture : Text) (change : TestCase → TestCase) {trees : List Container}
    {found : TestCase} (member : found ∈ Container.cases.all trees) :
    ∃ depth, Inside (testCase fixture (change found)) depth
      (containers fixture (Container.mapCases.all change trees)) := by
  cases trees with
  | nil => cases member
  | cons first rest =>
    rw [Container.mapCases.all, containers]
    rcases List.mem_append.mp member with here | further
    · obtain ⟨depth, inside⟩ := exists_inside_container fixture change here
      exact ⟨depth, (inside.trans (inside_apart _)).append_right _⟩
    · obtain ⟨depth, inside⟩ := exists_inside_containers fixture change further
      exact ⟨depth, inside.append_left _⟩

end

/-- The block of each test stands in that of its test case. -/
theorem inside_testCase (fixture : Text) {found : TestCase} {test : Test} (member : test ∈ found.tests) :
    Inside (Spec.test found.should test) 1 (testCase fixture found) := by
  have inside : Inside (Spec.test found.should test) 0
      (found.tests.flatMap fun test => apart (Spec.test found.should test)) :=
    .flatMap member (inside_apart _)
  exact (inside.append_left _).inBlock _ _

end Spec

end JasmineConversion
