import JasmineConversion.Host.PlainValue
import JasmineConversion.Proofs.Conversion.Surroundings
import JasmineConversion.Proofs.Files.Encoding
import JasmineConversion.Proofs.Files.Writing

/-! # The bytes of a converted file

A file is read with unified line ends and written as it is converted. So the bytes in front of the outer
container stay the same if, and only if, there is no carriage return among them. Without any carriage
return in the file the bytes that are written are those of the conversion of its very text.
-/

namespace JasmineConversion

open Text FileTree FileSession

variable {tree after : FileTree} {settings : Settings}

/-- A conversion that leaves the global names alone keeps the text in front of the container. -/
theorem exists_rest_of_convert (plain : settings.convertGlobals = false) {source output : Text}
    (converted : convert settings source = .ok output) :
    ∃ found rest, OuterContainer.read source = .ok found ∧ output = source.take found.start ++ rest := by
  obtain ⟨found, ran, -, rfl⟩ := exists_splice_of_convert converted
  have same (spec : Text) : found.splice settings source spec =
      source.take found.start ++ (spec ++ source.drop found.stop) := by
    unfold OuterContainer.splice
    rw [plain, List.append_assoc]
    rfl
  exact ⟨found, _, ran, same _⟩

/-- Where the front of a text stands in the code that its conversion with unified line ends gives. -/
theorem exists_front_of_unified (plain : settings.convertGlobals = false) {text code : Text}
    (converted : convert settings (Encoding.unifyLineEnds text) = .ok code) :
    ∃ found front rest, OuterContainer.read (Encoding.unifyLineEnds text) = .ok found ∧
      text = front ++ rest ∧
      Encoding.unifyLineEnds front = (Encoding.unifyLineEnds text).take found.start ∧
      Encoding.encode (Encoding.unifyLineEnds front) <+: Encoding.encode code ∧
      (Encoding.encode front <+: Encoding.encode code ↔ '\r' ∉ front) := by
  obtain ⟨found, behind, ran, rfl⟩ := exists_rest_of_convert plain converted
  obtain ⟨front, rest, split, unified⟩ :=
    Encoding.exists_front_of_unify (List.take_append_drop found.start _).symm
  refine ⟨found, front, rest, ran, split, unified, ?_, ?_⟩
  · rw [unified, Encoding.encode_append]
    exact List.prefix_append _ _
  · rw [← unified]
    exact Encoding.encode_isPrefix_iff front behind

/-- A successful conversion of a file puts the code for the text of the file, with its line ends unified,
where the target path leads. The code is that for the very text if this has no carriage return. Unless the
global names are converted, the bytes in front of the container are kept if and only if there is no
carriage return among them; otherwise, too, only line ends differ. -/
theorem converted_bytes (wet : settings.dryRun = false) {source target : Codes} {outcome : FileOutcome}
    {log log' : List LogRecord}
    (ran : convertFile source (some target) settings ⟨tree, log⟩ = (.ok outcome, ⟨after, log'⟩))
    (succeeded : outcome.status = .success) :
    ∃ origin place content text code, tree.walk (Path.parse source) = .file origin content ∧
      Encoding.decode content = .ok text ∧ content = Encoding.encode text ∧
      convert settings (Encoding.unifyLineEnds text) = .ok code ∧
      after.walk (Path.parse target) = .file place (Encoding.encode code) ∧
      ('\r' ∉ text → convert settings text = .ok code) ∧
      (settings.convertGlobals = false → ∃ found front rest,
        OuterContainer.read (Encoding.unifyLineEnds text) = .ok found ∧ text = front ++ rest ∧
        Encoding.unifyLineEnds front = (Encoding.unifyLineEnds text).take found.start ∧
        Encoding.encode (Encoding.unifyLineEnds front) <+: Encoding.encode code ∧
        (Encoding.encode front <+: Encoding.encode code ↔ '\r' ∉ front)) := by
  have effect := convertFile_does tree source target settings log
  rw [ran] at effect
  cases effect with
  | failed => cases succeeded
  | @converted code facts _ generates _ stored =>
    obtain ⟨origin, content, unified, leads, readable, converted⟩ := generates
    obtain ⟨text, decoded, rfl⟩ := Encoding.read_eq_ok_iff.mp readable
    rw [if_neg (by simp [wet])] at stored
    obtain ⟨made, -, written⟩ := stored
    obtain ⟨place, -, leads', -⟩ := exists_place_of_write written
    refine ⟨origin, place, content, text, code, leads, decoded, (Encoding.encode_of_decode decoded).symm,
      converted, leads', fun absent => ?_, fun plain => exists_front_of_unified plain converted⟩
    rwa [Encoding.unifyLineEnds_of_not_mem absent] at converted

/-- A line of code, which ends in some way, in front of a test case. -/
def ledCase (lineEnd : String) : Text :=
  ("x();" ++ lineEnd ++ "tests.a.add(\x7bname: 'b'\x7d);").toList

/-- A single file with a text. -/
def fileOf (text : Text) : FileTree :=
  .ofNames [(["a.js"], .file (Encoding.encode text))]

/-- Settings that leave the global names alone. -/
def plainSettings : Settings :=
  { convertGlobals := false }

/-- The code for the test case, behind the line of code. -/
def ledSpec (lineEnd : String) : Text :=
  ("x();" ++ lineEnd ++ "describe( \"a.b\", function() \x7b\n\x7d );").toList

/-- The file with the line of code is converted to another one. -/
def ledConversion (lineEnd : String) : Except Failure FileOutcome × Workspace :=
  convertFile (.ofString "a.js") (some (.ofString "b.js")) plainSettings ⟨fileOf (ledCase lineEnd), []⟩

/-- However the line of code ends, the file is converted to the same bytes. -/
theorem ledCase_converted {lineEnd : String} (isEnd : lineEnd = "\n" ∨ lineEnd = "\r\n") :
    ∃ outcome after log', ledConversion lineEnd = (.ok outcome, ⟨after, log'⟩) ∧
      outcome.status = .success ∧
      after.walk (Path.parse (.ofString "b.js")) =
        .file [FileName.encode (.ofString "b.js")] (Encoding.encode (ledSpec "\n")) := by
  have succeeded : (ledConversion lineEnd).1.toOption.any (·.status == .success) = true := by
    rcases isEnd with rfl | rfl <;> decide +kernel
  have holds : (ledConversion lineEnd).2.files.walk (Path.parse (.ofString "b.js")) =
      .file [FileName.encode (.ofString "b.js")] (Encoding.encode (ledSpec "\n")) := by
    rcases isEnd with rfl | rfl <;> decide +kernel
  obtain ⟨outcome, same, succeeded⟩ := exists_eq_ok_of_any succeeded
  exact ⟨outcome, (ledConversion lineEnd).2.files, (ledConversion lineEnd).2.log, Prod.ext same rfl,
    beq_iff_eq.mp succeeded, holds⟩

/-- A file without carriage returns is converted to the bytes of the conversion of its text. -/
theorem ledCase_written :
    plainSettings.dryRun = false ∧ ∃ outcome after log',
      ledConversion "\n" = (.ok outcome, ⟨after, log'⟩) ∧ outcome.status = .success ∧
      ∃ place code,
        after.walk (Path.parse (.ofString "b.js")) = .file place (Encoding.encode code) ∧
        convert plainSettings (ledCase "\n") = .ok code := by
  obtain ⟨outcome, after, log', ran, succeeded, -⟩ := ledCase_converted (.inl rfl)
  refine ⟨rfl, outcome, after, log', ran, succeeded, ?_⟩
  obtain ⟨origin, place, content, text, code, leads, decoded, -, -, written, same, -⟩ :=
    converted_bytes rfl ran succeeded
  have there : (fileOf (ledCase "\n")).walk (Path.parse (.ofString "a.js")) =
      .file [FileName.encode (.ofString "a.js")] (Encoding.encode (ledCase "\n")) := by
    decide +kernel
  cases there.symm.trans leads
  have known : Encoding.decode (Encoding.encode (ledCase "\n")) = .ok (ledCase "\n") := by
    rfl
  cases known.symm.trans decoded
  exact ⟨place, code, written, same (by decide +kernel)⟩

/-- A carriage return in front of the container is lost, though the conversion of the text keeps it. -/
theorem ledCase_loses_return :
    Settings.ofValues PlainValue.coercions [("convert_jshint_globals".toList, .boolean false)] =
        .ok plainSettings ∧
    ∃ outcome after log', ledConversion "\r\n" = (.ok outcome, ⟨after, log'⟩) ∧
      outcome.status = .success ∧
      Encoding.decode (Encoding.encode (ledCase "\r\n")) = .ok (ledCase "\r\n") ∧
      convert plainSettings (ledCase "\r\n") = .ok (ledSpec "\r\n") ∧
      after.walk (Path.parse (.ofString "b.js")) =
        .file [FileName.encode (.ofString "b.js")] (Encoding.encode (ledSpec "\n")) ∧
      Encoding.encode (ledSpec "\n") ≠ Encoding.encode (ledSpec "\r\n") ∧
      ¬ Encoding.encode "x();\r\n".toList <+: Encoding.encode (ledSpec "\n") := by
  obtain ⟨outcome, after, log', ran, succeeded, written⟩ := ledCase_converted (.inr rfl)
  obtain ⟨code, converted, same⟩ := exists_eq_ok_of_any (by decide +kernel :
    (convert plainSettings (ledCase "\r\n")).toOption.any (· == ledSpec "\r\n") = true)
  obtain rfl := beq_iff_eq.mp same
  exact ⟨rfl, outcome, after, log', ran, succeeded, by rfl, converted, written, by decide +kernel,
    by decide +kernel⟩

end JasmineConversion
