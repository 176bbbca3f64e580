import JasmineConversion.Proofs.Spec.Blocks
import JasmineConversion.Proofs.Spec.Emission

/-! # Specs at another level

The level of a spec is nothing but an indent in front of its lines: written at a level, a spec is what
it is at level zero, with as many units before each line that is not empty. A suite holds the specs of
its children as these are written by themselves, one level deeper.
-/

namespace JasmineConversion

open Text

namespace Text

/-- A text with copies of a unit before each line that is not empty. -/
def indented (count : Nat) (unit text : Text) : Text :=
  unlines ((lines text).map fun line => if line.isEmpty then [] else repeated count unit ++ line)

/-- Lines may be put together in parts first. -/
theorem unlines_flatten {parts : List (List Text)} (nonempty : ∀ part ∈ parts, part ≠ []) :
    unlines parts.flatten = unlines (parts.map unlines) := by
  induction parts with
  | nil => rfl
  | cons part parts ih =>
    obtain ⟨here, further⟩ := List.forall_mem_cons.mp nonempty
    by_cases last : parts = []
    · subst last
      simp [unlines, join]
    · obtain ⟨next, parts, rfl⟩ := List.exists_cons_of_ne_nil last
      have more : (next :: parts).flatten ≠ [] := by simp [further next List.mem_cons_self]
      calc unlines (part ++ (next :: parts).flatten)
          = unlines part ++ '\n' :: unlines (next :: parts).flatten := unlines_append here more
        _ = unlines part ++ '\n' :: unlines ((next :: parts).map unlines) := by rw [ih further]
        _ = unlines (unlines part :: (next :: parts).map unlines) := (unlines_cons (by simp)).symm

end Text

namespace Line

variable {unit : Text}

/-- A line at a deeper level has that many units more, unless it is empty. -/
theorem render_add (unit : Text) (level count : Nat) (line : Line) :
    render unit ((level + count : Nat) : Int) line =
      if (render unit level line).isEmpty then [] else repeated count unit ++ render unit level line := by
  by_cases empty : line.text = []
  · simp [render, empty]
  · have shallow : render unit level line = repeated (level + line.depth) unit ++ line.text :=
      render_of_ne_nil level line.depth empty
    have deep : render unit ((level + count : Nat) : Int) line =
        repeated (level + count + line.depth) unit ++ line.text :=
      render_of_ne_nil (level + count) line.depth empty
    have depths : level + count + line.depth = count + (level + line.depth) := by omega
    rw [deep, shallow, depths, repeated_add]
    simp [empty]

/-- Code at a deeper level is the same code, indented. -/
theorem renderAll_add (single : '\n' ∉ unit) (level count : Nat) {code : List Line}
    (nonempty : code ≠ []) (singles : Single code) :
    renderAll unit ((level + count : Nat) : Int) code = indented count unit (renderAll unit level code) := by
  rw [indented, lines_renderAll single level nonempty singles, List.map_map, renderAll]
  congr 1
  exact List.map_congr_left fun line _ => render_add unit level count line

/-- Deeper lines are written as at the next level. -/
theorem map_render_deeper (unit : Text) (level : Nat) (code : List Line) :
    (deeper code).map (render unit level) = code.map (render unit ((level + 1 : Nat) : Int)) := by
  have lower := render_lowered unit level 1 code
  rwa [← deeper_lowered, lowered_zero] at lower

/-- A text that is code by itself is written indented. -/
theorem renderAll_ofText (single : '\n' ∉ unit) (level : Nat) (text : Text) :
    renderAll unit level (ofText text) = indented level unit text := by
  have plain : renderAll unit ((0 : Nat) : Int) (ofText text) = text := by
    have each : render unit ((0 : Nat) : Int) ∘ Line.mk 0 = id := by
      funext line
      cases line <;> rfl
    rw [renderAll, ofText, List.map_map, each, List.map_id, unlines_lines]
  have nonempty : ofText text ≠ [] := by simp [ofText, lines_ne_nil]
  have moved := renderAll_add single 0 level nonempty (single_ofText text)
  rwa [plain, Nat.zero_add] at moved

end Line

namespace Spec

open Line

mutual

/-- Every line of a container is a single line. -/
theorem single_container (fixture : Text) (tree : Container) : Single (container fixture tree) := by
  cases tree with
  | suite name children =>
    rw [container]
    exact single_block.mpr (single_containers fixture children)
  | testCase inner => exact single_testCase fixture inner

/-- Every line of some containers is a single line. -/
theorem single_containers (fixture : Text) (children : List Container) :
    Single (containers fixture children) := by
  cases children with
  | nil => exact single_nil
  | cons first rest =>
    rw [containers]
    exact single_append.mpr
      ⟨single_apart.mpr (single_container fixture first), single_containers fixture rest⟩

end

/-- A spec at a level is the spec at level zero, indented. -/
theorem write_eq_indented {unit : Text} (single : '\n' ∉ unit) (level : Nat) (fixture : Text)
    (tree : Container) :
    write ⟨unit, level, fixture⟩ tree = indented level unit (write ⟨unit, 0, fixture⟩ tree) := by
  have moved := renderAll_add single 0 level (container_ne_nil fixture tree)
    (single_container fixture tree)
  rwa [Nat.zero_add] at moved

/-- The rendered lines of the children of a suite, each child between empty lines. -/
def blocks (unit : Text) (level : Nat) (fixture : Text) (children : List Container) : List (List Text) :=
  children.flatMap fun child =>
    [[[]], (container fixture child).map (render unit ((level + 1 : Nat) : Int)), [[]]]

/-- The lines of the children of a suite are those of its blocks. -/
theorem map_render_containers (unit : Text) (level : Nat) (fixture : Text) (children : List Container) :
    (containers fixture children).map (render unit ((level + 1 : Nat) : Int)) =
      (blocks unit level fixture children).flatten := by
  induction children with
  | nil => rfl
  | cons child children ih =>
    simp only [containers, apart, List.map_append, ih]
    simp [blocks, blank, render]

/-- No block of a suite is empty. -/
theorem ne_nil_of_mem_blocks {unit : Text} {level : Nat} {fixture : Text} {children : List Container}
    {part : List Text} (member : part ∈ blocks unit level fixture children) : part ≠ [] := by
  obtain ⟨child, -, isPart⟩ := List.mem_flatMap.mp member
  simp only [List.mem_cons, List.not_mem_nil, or_false] at isPart
  rcases isPart with rfl | rfl | rfl
  · simp
  · simpa using container_ne_nil fixture child
  · simp

/-- The spec of a suite is put together from its head, the specs of its children one level deeper, each
between empty lines, and its tail. -/
theorem write_suite {unit : Text} (single : '\n' ∉ unit) (level : Nat) (fixture name : Text)
    (children : List Container) :
    write ⟨unit, level, fixture⟩ (.suite name children) =
      unlines
        (indented level unit ("describe( ".toList ++ quote name ++ ", function() \x7b".toList) ::
          (children.flatMap fun child => [[], write ⟨unit, (level + 1 : Nat), fixture⟩ child, []]) ++
          [indented level unit callTail]) := by
  let head := "describe".toList ++ "( ".toList ++ quote name ++ ", function() \x7b".toList
  let parts : List (List Text) :=
    (ofText head).map (render unit level) :: blocks unit level fixture children ++
      [(ofText callTail).map (render unit level)]
  have nonempty : ∀ part ∈ parts, part ≠ [] := by
    intro part member
    rcases List.mem_append.mp member with member | member
    · rcases List.mem_cons.mp member with rfl | member
      · simp [ofText, lines_ne_nil]
      · exact ne_nil_of_mem_blocks member
    · rw [List.mem_singleton.mp member]
      simp [ofText, lines_ne_nil]
  have flat : (container fixture (.suite name children)).map (render unit level) = parts.flatten := by
    simp only [parts, head, container, titledBlock, Line.block, List.map_append, map_render_deeper,
      map_render_containers, List.flatten_append, List.flatten_cons, List.flatten_nil, List.append_nil]
  have joined : parts.map unlines =
      indented level unit head ::
        (children.flatMap fun child => [[], write ⟨unit, (level + 1 : Nat), fixture⟩ child, []]) ++
        [indented level unit callTail] := by
    have ends := renderAll_ofText single level
    simp only [renderAll] at ends
    simp only [parts, blocks, List.map_append, List.map_cons, List.map_nil, List.map_flatMap, ends]
    rfl
  rw [write, renderAll, flat, unlines_flatten nonempty, joined]
  rfl

/-- **Specs at a level.** A spec is written at a level as at level zero, with the indent of the level in
front of each line that is not empty. A suite holds exactly what its children are written as one level
deeper. And a writer that raises and lowers its level as it goes emits this spec, and is at the end at
the level it started at. -/
theorem write_at_level {unit : Text} (single : '\n' ∉ unit) (fixture : Text) (level : Nat) :
    (∀ tree, write ⟨unit, level, fixture⟩ tree = indented level unit (write ⟨unit, 0, fixture⟩ tree)) ∧
    (∀ name children,
      write ⟨unit, level, fixture⟩ (.suite name children) =
        unlines
          (indented level unit ("describe( ".toList ++ quote name ++ ", function() \x7b".toList) ::
            (children.flatMap fun child => [[], write ⟨unit, (level + 1 : Nat), fixture⟩ child, []]) ++
            [indented level unit callTail])) ∧
    ∀ tree, emitted ⟨unit, level, fixture⟩ tree = (write ⟨unit, level, fixture⟩ tree, (level : Int)) :=
  ⟨write_eq_indented single level fixture, write_suite single level fixture,
    emitted_eq ⟨unit, level, fixture⟩⟩

/-- A suite of one test case, which has one test with an empty line in its body. -/
def smallSuite : Container :=
  .suite "s".toList [.testCase { name := "c".toList, tests := [⟨"t".toList, ⟨"a();\n\nb();".toList, 1⟩⟩] }]

/-- The suite is written at the first level with one unit more in front of each line that is not empty.
-/
theorem write_smallSuite_at_level :
    write ⟨"  ".toList, 1, "ctx".toList⟩ smallSuite =
        indented 1 "  ".toList (write ⟨"  ".toList, 0, "ctx".toList⟩ smallSuite) ∧
      write ⟨"  ".toList, 0, "ctx".toList⟩ smallSuite =
        ("describe( \"s\", function() \x7b\n\n  describe( \"c\", function() \x7b\n\n" ++
          "    it( \"t\", function() \x7b\n      a();\n\n      b();\n    \x7d );\n\n" ++
          "  \x7d );\n\n\x7d );").toList :=
  ⟨(write_at_level (by decide) "ctx".toList 1).1 smallSuite, by decide +kernel⟩

end Spec

end JasmineConversion
