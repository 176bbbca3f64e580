import JasmineConversion.Host.PlainValue
import JasmineConversion.Proofs.Files.Run

/-! # What becomes of the converted files

The files of a directory are kept when they are converted, also if the new ones are written to the same
directory, unless one of the new paths leads to a file that is itself converted. This is so only if the
input mask selects a name that the output mask gives.
-/

namespace JasmineConversion

open Text FileTree FileSession

variable {settings : Settings} {tree after : FileTree} {paths : List (Path × Path)}

/-- However the conversion of a directory ends, a file that it converts is where it was, with the
content that it had, or with code that was generated for a path that leads to it. If the input mask
selects none of the names that are seen for new paths, all files have the content that they had. -/
theorem converted_files_kept {input output : Codes} {source : Path} (wellFormed : tree.WellFormed)
    (checked : checkSource tree input = .ok source)
    (isDirectory : (tree.walk source).isDirectory = true)
    (mapped : outputPaths tree source.codes output settings.inputMask settings.outputMask = .ok paths)
    {log log' : List LogRecord} {result : Except Failure RunOutcome}
    (ran : convertPath input (some output) settings ⟨tree, log⟩ = (result, ⟨after, log'⟩))
    {p : Path × Path} (member : p ∈ paths) :
    ∃ place content, tree.walk p.1 = .file place content ∧
      (after.walk p.1 = .file place content ∨ settings.dryRun = false ∧
        ∃ q ∈ paths, ∃ text code, convert settings text = .ok code ∧
          after.walk q.2 = .file place (Encoding.encode code)) ∧
      ((∀ q ∈ paths, Mask.isMatch settings.inputMask (FileName.listed q.2.name) = false) →
        after.walk p.1 = .file place content) := by
  have isMapped := fun p (member : p ∈ paths) => mapped_of_mem wellFormed mapped member
  have proper : ∀ p ∈ paths, p.1.Proper ∧ p.2.Proper := fun p member => (isMapped p member).proper
  have isOpen : Progress.Open {} := ⟨rfl, rfl⟩
  obtain ⟨attempts, ended, last, logged, runs, folded⟩ := exists_run isOpen proper tree _
  rw [convertPath_eq checked isDirectory mapped log, folded] at ran
  obtain ⟨rfl, rfl⟩ := Workspace.mk.inj (congrArg Prod.snd ran)
  have frame := (Frame.init settings paths tree).runs runs (fun _ => id) proper
  obtain ⟨place, content, leads⟩ := (isMapped p member).leads_to_file
  obtain ⟨content', leads'⟩ := frame.keeps.walk_file leads
  have there := (walk_eq_file_iff.mp leads).2
  have there' := (walk_eq_file_iff.mp leads').2
  refine ⟨place, content, leads, ?_⟩
  -- The place of a source was taken before the run, so all that can happen is that it is written to.
  rcases frame.changed place with same | ⟨absent, -⟩ | ⟨entry, isEntry, leadsEntry⟩
  · have kept : last.walk p.1 = .file place content := by
      rw [same, there] at there'
      cases there'
      exact leads'
    exact ⟨.inl kept, fun _ => kept⟩
  · rw [there] at absent
    cases absent
  · obtain ⟨q, isTarget, same, text, generated⟩ := frame.recorded entry isEntry
    rw [same, Path.parse_codes (proper q isTarget).2] at leadsEntry
    refine ⟨?_, fun unselected => ?_⟩
    · cases dry : settings.dryRun with
      | true =>
        rw [frame.dry dry]
        exact .inl leads
      | false => exact .inr ⟨rfl, q, isTarget, text, entry.2, generated, leadsEntry⟩
    -- Paths that lead to one place end with one name, which the mask selects for the source.
    · have name := (walk_eq_file_iff.mp leadsEntry).1.name_eq.trans
        (walk_eq_file_iff.mp leads').1.name_eq.symm
      obtain ⟨selected, seen, isSeen⟩ := (isMapped p member).selected
      have other := unselected q isTarget
      rw [FileName.listed, name, isSeen, FileName.encode_decode, ← isSeen, selected] at other
      cases other

/-- A directory with one test. -/
def loneTest : FileTree :=
  .ofNames [(["d"], .directory),
    (["d", "aTest.js"], .file (Encoding.encode "tests.a.add(\x7bname: 'b'\x7d);".toList))]

/-- A test that is converted within its directory keeps its content. -/
theorem loneTest_kept :
    ∃ result after log', convertPath (.ofString "d") (some (.ofString "d")) {} ⟨loneTest, []⟩ =
        (result, ⟨after, log'⟩) ∧
      ∃ place content, loneTest.walk (Path.parse (.ofString "d/aTest.js")) = .file place content ∧
        after.walk (Path.parse (.ofString "d/aTest.js")) = .file place content := by
  have mapped : outputPaths loneTest (Path.parse (.ofString "d")).codes (.ofString "d")
      ({} : Settings).inputMask ({} : Settings).outputMask =
        .ok [(Path.parse (.ofString "d/aTest.js"), Path.parse (.ofString "d/aSpec.js"))] :=
    outputPaths_eq_ok (by rfl) (by decide +kernel) (by decide +kernel)
  obtain ⟨place, content, leads, -, kept⟩ := converted_files_kept (by decide +kernel) (by rfl)
    (by decide +kernel) mapped
    (rfl : convertPath (.ofString "d") (some (.ofString "d")) {} ⟨loneTest, []⟩ = _)
    List.mem_cons_self
  exact ⟨_, _, _, rfl, place, content, leads, kept (by decide +kernel)⟩

/-- A directory below the working directory, with one file that is no test by its name. -/
def loneFile : FileTree :=
  { FileTree.ofNames [(["w"], .directory), (["w", "d"], .directory),
      (["w", "d", "a.js"], .file (Encoding.encode "tests.a.add(\x7bname: 'b'\x7d);".toList))] with
    base := [FileName.encode (.ofString "w")] }

/-- By different masks, a file can still be mapped to itself, also by a path from the root: it is
overwritten. -/
theorem loneFile_overwritten :
    ∃ settings paths, Settings.ofValues PlainValue.coercions
        [("input_mask".toList, .string (.ofString "a*.js")),
          ("output_mask".toList, .string (.ofString "*a.js"))] = .ok settings ∧
      settings.dryRun = false ∧ loneFile.WellFormed ∧
      outputPaths loneFile (.ofString "d") (.ofString "/w/d") settings.inputMask
        settings.outputMask = .ok paths ∧
      ∃ p ∈ paths, ∃ place content, loneFile.walk p.1 = .file place content ∧
        (convertPath (.ofString "d") (some (.ofString "/w/d")) settings ⟨loneFile, []⟩).2.files.walk
          p.1 ≠ .file place content := by
  have mapped : outputPaths loneFile (Path.parse (.ofString "d")).codes (.ofString "/w/d")
      (.ofString "a*.js") (.ofString "*a.js") =
        .ok [(Path.parse (.ofString "d/a.js"), Path.parse (.ofString "/w/d/a.js"))] :=
    outputPaths_eq_ok (by rfl) (by decide +kernel) (by decide +kernel)
  refine ⟨{ inputMask := .ofString "a*.js", outputMask := .ofString "*a.js" }, _, by rfl, rfl,
    by decide +kernel, mapped, _, List.mem_cons_self,
    ["w", "d", "a.js"].map fun name => FileName.encode (.ofString name), _, by rfl, ?_⟩
  rw [convertPath_eq (by rfl) (by decide +kernel) mapped]
  decide +kernel

end JasmineConversion
