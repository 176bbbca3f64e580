import JasmineConversion.Host.PlainValue
import JasmineConversion.Proofs.Conversion.Surroundings
import JasmineConversion.Proofs.Settings.Validation
import JasmineConversion.Proofs.Spec.Anchors
import JasmineConversion.Proofs.Suite.Reports

/-! # What a conversion leaves

A conversion takes the place of one outer container, the first, and keeps all other text. What the
reader would look for is left in the converted text exactly where the conversion kept it: behind the
container, or in a piece of the container that the spec carries over. Neither the writer nor the list
of global names adds an opening, nor does the text in front of the container.
-/

namespace JasmineConversion

open Text Pattern

/-- A spec in place of the outer container leaves the openings behind the container and those of its
own. -/
theorem unanchored_splice_iff {settings : Settings} (sound : settings.Sound) {source : Text}
    {found : OuterContainer} (ran : OuterContainer.read source = .ok found) (tree : Container) :
    Unanchored true (found.splice settings source (Spec.write (settings.specStyle found) tree)) ↔
      Unanchored false (source.drop found.stop) ∧ tree.Unanchored := by
  have blank : ∀ c ∈ (settings.specStyle found).unit, isIndent c = true := sound.unit_indents
  have closed : '{' ∉ (settings.specStyle found).fixture := by
    intro member
    exact absurd (List.all_eq_true.mp (Bool.and_eq_true_iff.mp sound.fixture).2 _ member) (by decide)
  obtain ⟨anchor, region, opened, -⟩ := SuiteReader.exists_outerText_of_read ran
  obtain ⟨indent, front, indented, written⟩ := Spec.exists_write blank tree
  have lead : '{' ∉ indent ++ "describe( ".toList := by
    rw [List.mem_append, not_or]
    exact ⟨fun member => absurd (indented _ member) (by decide), by decide⟩
  have spliced : Unanchored true (source.take found.start ++
      Spec.write (settings.specStyle found) tree ++ source.drop found.stop) ↔
        Unanchored false (source.drop found.stop) ∧ tree.Unanchored := by
    have split : source.take found.start ++ Spec.write (settings.specStyle found) tree ++
        source.drop found.stop = source.take found.start ++ (indent ++ "describe( ".toList ++
          '"' :: (front ++ ';' :: source.drop found.stop)) := by
      rw [written]
      simp
    rw [split, unanchored_behind (unanchored_take_of_findAnchor opened) (fresh_of_findAnchor opened) lead
      (by decide), unanchored_foreign lead (by decide), unanchored_append_cons _ (by decide),
      ← Spec.unanchored_write_iff blank closed tree, written, unanchored_foreign lead (by decide),
      unanchored_append_cons _ (by decide)]
    simp [and_comm]
  unfold OuterContainer.splice
  dsimp only
  split
  · rw [Globals.unanchored_convert, spliced]
  · exact spliced

/-- Reading a converted text reports that there is no outer container if and only if none opens behind
the converted container, on a later line, and none in the pieces that its spec is made of: at the start
of a line of a body, or behind a line feed in a name, a message or a list of parameters. -/
theorem no_container_left_iff {ω : Type} {coercions : Coercions ω} {values : SettingValues ω}
    {settings : Settings}
    (valid : Settings.ofValues coercions values = .ok settings) {source output : Text}
    (converted : convert settings source = .ok output) :
    ∃ found, OuterContainer.read source = .ok found ∧
      ((∃ error, OuterContainer.read output = .error error ∧ error.cause = .noOuterContainer) ↔
        Unanchored false (source.drop found.stop) ∧
          (found.tree.adapt settings.bodyStyle).1.Unanchored) := by
  obtain ⟨found, ran, -, rfl⟩ := exists_splice_of_convert converted
  refine ⟨found, ran, ?_⟩
  rw [OuterContainer.read_noOuterContainer_iff]
  exact unanchored_splice_iff (Settings.sound_of_ofValues valid) ran _

/-- A test case that names the opening of another one in its body and behind its end, but not at the
start of a line. -/
def quotingCase : Text :=
  ("// tests\ntests.a.add(\x7bname: 'b', test_x: function() \x7b\n  // tests.c.add(\x7b\n\x7d\x7d); " ++
    "tests.c.add(\x7bname: 'd'\x7d);").toList

/-- The spec of a case that quotes a container holds none that is found again. -/
theorem no_container_left_of_quotingCase :
    Settings.ofValues PlainValue.coercions [] = .ok {} ∧
      ∃ output found, convert {} quotingCase = .ok output ∧ OuterContainer.read quotingCase = .ok found ∧
        Unanchored false (quotingCase.drop found.stop) ∧
        (found.tree.adapt (Settings.bodyStyle {})).1.Unanchored ∧
        ∃ error, OuterContainer.read output = .error error ∧ error.cause = .noOuterContainer := by
  have valid : Settings.ofValues PlainValue.coercions [] = .ok {} := rfl
  obtain ⟨output, converted, unopened⟩ := exists_eq_ok_of_any (by decide +kernel :
    (convert {} quotingCase).toOption.any (fun output => (findAnchor output).isNone) = true)
  have missing := OuterContainer.read_of_unopened (Option.isNone_iff_eq_none.mp unopened)
  obtain ⟨found, ran, left⟩ := no_container_left_iff valid converted
  obtain ⟨behind, inside⟩ := left.mp ⟨_, missing, rfl⟩
  exact ⟨valid, output, found, converted, ran, behind, inside, _, missing, rfl⟩

/-- Two test cases one after the other. -/
def twoCases : Text :=
  "tests.a.add(\x7bname: 'b'\x7d);\ntests.c.add(\x7bname: 'd'\x7d);".toList

/-- The second of two containers is still there to be read after a conversion. -/
theorem container_left_of_twoCases :
    Settings.ofValues PlainValue.coercions [] = .ok {} ∧
      ∃ output found, convert {} twoCases = .ok output ∧ OuterContainer.read output = .ok found ∧
        found.tree.name = "c.d".toList := by
  obtain ⟨output, converted, left⟩ := exists_eq_ok_of_any (by decide +kernel :
    (convert {} twoCases).toOption.any (fun output =>
      (OuterContainer.read output).toOption.any (·.tree.name = "c.d".toList)) = true)
  obtain ⟨found, ran, named⟩ := exists_eq_ok_of_any left
  exact ⟨rfl, output, found, converted, ran, of_decide_eq_true named⟩

end JasmineConversion
