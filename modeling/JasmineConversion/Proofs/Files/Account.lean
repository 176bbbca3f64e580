import JasmineConversion.Host.PlainValue
import JasmineConversion.Proofs.Files.Run

/-! # What the conversion of a directory accounts for

The outcome of the conversion of a directory tells for each file whether it was converted or failed. A
dry run changes nothing. Otherwise directories are made, and the only files that change are those that
the paths lead to under which code was generated: they hold this code.
-/

namespace JasmineConversion

open Text FileTree FileSession

variable {settings : Settings} {tree between after : FileTree} {paths all : List (Path × Path)}
  {attempt : Attempt} {attempts : List Attempt} {ended : Option Failure}

/-! ## The conversion does not end without an outcome -/

/-- Putting a code keeps the entries of the tree. -/
theorem FileTree.Puts.keeps {target : Path} {code : Text} (puts : Puts tree target code after) :
    Keeps tree after := by
  obtain ⟨made, grows, ran⟩ := puts
  obtain ⟨_, keeps, -, -⟩ := exists_place_of_write ran
  exact grows.keeps.trans keeps

/-- An attempt keeps the entries of the tree. -/
theorem Tries.keeps (proper : attempt.paths.1.Proper ∧ attempt.paths.2.Proper)
    (tries : Tries settings tree attempt after) : Keeps tree after := by
  rcases tries.cases proper with ⟨code, -, -, stored⟩ | ⟨-, grows, -⟩
  · split at stored
    · exact stored ▸ .refl tree
    · exact stored.keeps
  · exact grows.keeps

/-- The sources stay where they are, so only a target that cannot be handed to the system could end the conversion. -/
theorem Runs.not_ended (runs : Runs settings tree paths attempts ended after)
    (proper : ∀ p ∈ paths, p.1.Proper ∧ p.2.Proper)
    (there : ∀ p ∈ paths, ∃ place content, tree.walk p.1 = .file place content)
    (writable : settings.dryRun = true ∨ ∀ p ∈ paths, p.2.hazard? = none) : ended = none := by
  induction runs with
  | done => rfl
  | halted => rfl
  | next tries _ _ ih =>
    obtain ⟨properHere, proper⟩ := List.forall_mem_cons.mp proper
    refine ih proper (fun p member => ?_) ?_
    · obtain ⟨place, content, leads⟩ := there p (List.mem_cons_of_mem _ member)
      exact ⟨place, (tries.keeps properHere).walk_file leads⟩
    · exact writable.imp_right fun clean p member => clean p (List.mem_cons_of_mem _ member)
  | ended effect =>
    obtain ⟨place, content, leads⟩ := there _ List.mem_cons_self
    cases effect with
    | ended grows dry cause =>
      rcases cause with absent | ⟨wet, hazard⟩
      · rw [leads] at absent
        cases absent
      · rcases writable with isDry | clean
        · exact Bool.noConfusion (wet.symm.trans isDry)
        · exact absurd (clean _ List.mem_cons_self) hazard

/-! ## Recorded code is in the files -/

/-- Every path under which code is recorded leads to a file with this code. -/
structure Holds (generated : Entries Codes Text) (after : FileTree) : Prop where
  distinct : (generated.map Prod.fst).Nodup
  leads : ∀ entry ∈ generated,
    ∃ place, after.walk (Path.parse entry.1) = .file place (Encoding.encode entry.2)

/-- Different new paths never lead to the same file. -/
def Apart (paths : List (Path × Path)) : Prop :=
  ∀ p ∈ paths, ∀ q ∈ paths, ∀ (after : FileTree) (place : Place) (content content' : List UInt8),
    after.walk p.2 = .file place content → after.walk q.2 = .file place content' → p.2 = q.2

/-- Generated codes are still held when only directories are made. -/
theorem Holds.grow {generated : Entries Codes Text} (holds : Holds generated between)
    (grows : Grows between after) : Holds generated after where
  distinct := holds.distinct
  leads entry member := by
    obtain ⟨place, leads⟩ := holds.leads entry member
    exact ⟨place, grows.walk_file leads⟩

/-- An attempt keeps the codes that were generated before it, and its own is held. -/
theorem Holds.tries {generated : Entries Codes Text} (holds : Holds generated between)
    (frame : Frame settings paths tree generated between) (wet : settings.dryRun = false)
    (apart : Apart paths) (member : attempt.paths ∈ paths)
    (proper : ∀ p ∈ paths, p.1.Proper ∧ p.2.Proper) (tries : Tries settings between attempt after) :
    Holds (attempt.record generated) after := by
  rcases tries.cases (proper _ member) with ⟨code, converted, -, stored⟩ | ⟨failed, grows, -⟩
  · rw [if_neg (by simp [wet])] at stored
    obtain ⟨made, grows, ran⟩ := stored
    have holds := holds.grow grows
    obtain ⟨place, keeps, leads, elsewhere⟩ := exists_place_of_write ran
    rw [Attempt.record_of_converted converted]
    refine ⟨Entries.nodup_put holds.distinct, fun entry isEntry => ?_⟩
    rcases Entries.mem_of_mem_put_of_nodup holds.distinct isEntry with rfl | ⟨isEntry, different⟩
    · rw [Path.parse_codes (proper _ member).2]
      exact ⟨place, leads⟩
    · obtain ⟨other, leads'⟩ := holds.leads entry isEntry
      obtain ⟨isNamed, there⟩ := walk_eq_file_iff.mp leads'
      refine ⟨other, walk_eq_file_iff.mpr ⟨keeps.names isNamed, ?_⟩⟩
      -- What is written now is not what the entry is about, because their paths are different.
      rw [elsewhere other, there]
      rintro rfl
      obtain ⟨p, isMapped, same, -⟩ := frame.recorded entry isEntry
      obtain ⟨content, leads'⟩ := keeps.walk_file leads'
      rw [same, Path.parse_codes (proper p isMapped).2] at leads'
      exact different (same.trans (congrArg Path.codes
        (apart p isMapped _ member after _ _ _ leads' leads)))
  · rw [Attempt.record_of_failed failed]
    exact holds.grow grows

/-- A run keeps the codes that it generates, since the files apart from each other stay so. -/
theorem Holds.runs {generated : Entries Codes Text} (holds : Holds generated between)
    (frame : Frame settings all tree generated between) (wet : settings.dryRun = false)
    (apart : Apart all) (runs : Runs settings between paths attempts ended after)
    (members : ∀ p ∈ paths, p ∈ all) (proper : ∀ p ∈ all, p.1.Proper ∧ p.2.Proper) :
    Holds (attempts.foldl Attempt.record generated) after := by
  induction runs generalizing generated with
  | done => exact holds
  | next tries _ _ ih =>
    obtain ⟨here, further⟩ := List.forall_mem_cons.mp members
    exact ih (holds.tries frame wet apart here proper tries)
      (frame.tries here (proper _ here) tries) further
  | halted tries _ _ =>
    have here := members _ List.mem_cons_self
    exact holds.tries frame wet apart here proper tries
  | ended effect =>
    cases effect with
    | ended grows dry cause => exact holds.grow grows

/-! ## What the outcome tells -/

/-- The converted paths of a run are those of its attempts, in order. -/
theorem converted_foldl_advance (settings : Settings) (attempts : List Attempt) (progress : Progress) :
    (attempts.foldl (Progress.advance settings) progress).converted =
      progress.converted ++ (attempts.filterMap Attempt.converted?).map Prod.fst := by
  induction attempts generalizing progress with
  | nil => simp
  | cons attempt attempts ih =>
    rw [List.foldl_cons, ih]
    obtain ⟨p, code | failure⟩ := attempt
    · simp [Progress.advance, Attempt.converted?]
    · rfl

/-- The generated codes of a run are those that its attempts record. -/
theorem generated_foldl_advance (settings : Settings) (attempts : List Attempt) (progress : Progress) :
    (attempts.foldl (Progress.advance settings) progress).generated =
      attempts.foldl Attempt.record progress.generated := by
  induction attempts generalizing progress with
  | nil => rfl
  | cons attempt attempts ih =>
    rw [List.foldl_cons, ih, List.foldl_cons]
    obtain ⟨p, code | failure⟩ := attempt <;> rfl

/-- The failures are kept in order, since no source comes twice. -/
theorem failures_foldl_advance (settings : Settings) (attempts : List Attempt) (progress : Progress)
    (fresh : (progress.failures.map Prod.fst ++ attempts.map (·.paths.1.codes)).Nodup) :
    (attempts.foldl (Progress.advance settings) progress).failures =
      progress.failures ++ attempts.filterMap Attempt.failed? := by
  induction attempts generalizing progress with
  | nil => simp
  | cons attempt attempts ih =>
    rw [List.foldl_cons]
    rw [List.map_cons] at fresh
    obtain ⟨p, code | failure⟩ := attempt
    · rw [ih]
      · rfl
      · exact fresh.sublist ((List.sublist_cons_self _ _).append_left _)
    · have absent : p.1.codes ∉ progress.failures.map Prod.fst := fun member =>
        (List.nodup_append.mp fresh).2.2 _ member _ List.mem_cons_self rfl
      have added : (progress.advance settings ⟨p, .failed failure⟩).failures =
          progress.failures ++ [(p.1.codes, failure.message.toList)] := Entries.put_of_fresh absent
      rw [ih, added]
      · simp [Attempt.failed?]
      · rw [added]
        simpa using fresh

/-- The attempts that are made are the first ones of the mapping: all of them, or up to the first
failure if settings say so. -/
theorem Runs.extent (runs : Runs settings tree paths attempts none after) {progress : Progress}
    (isOpen : progress.Open) :
    (attempts.map Attempt.paths = paths ∧
      (settings.failFast = true → ∀ attempt ∈ attempts, attempt.failed? = none) ∧
      (attempts.foldl (Progress.advance settings) progress).stopped = none) ∨
    settings.failFast = true ∧ attempts.map Attempt.paths <+: paths ∧
      ∃ done last failure, attempts = done ++ [last] ∧ (∀ attempt ∈ done, attempt.failed? = none) ∧
        last.verdict = .failed failure ∧
        (attempts.foldl (Progress.advance settings) progress).stopped = some failure := by
  generalize isNone : (none : Option Failure) = ended at runs
  induction runs generalizing progress with
  | done => exact .inl ⟨rfl, by simp, isOpen.notStopped⟩
  | @next _ _ _ attempt _ _ _ tries goesOn further ih =>
    have isOpen' : (progress.advance settings attempt).Open := by
      refine ⟨?_, ended_advance isOpen attempt⟩
      obtain ⟨p, code | failure⟩ := attempt
      · exact isOpen.notStopped
      · have lax := goesOn.resolve_left (by simp [Attempt.failed?])
        simp [Progress.advance, lax]
    rcases ih isOpen' isNone with ⟨whole, clean, stopped⟩ |
      ⟨failFast, front, done, last, failure, rfl, clean, fails, stopped⟩
    · refine .inl ⟨by rw [List.map_cons, whole], fun failFast => ?_, stopped⟩
      have here := goesOn.resolve_right (by simp [failFast])
      exact List.forall_mem_cons.mpr ⟨here, clean failFast⟩
    · have here := goesOn.resolve_right (by simp [failFast])
      exact .inr ⟨failFast, List.cons_prefix_cons.mpr ⟨rfl, front⟩, attempt :: done, last, failure,
        rfl, List.forall_mem_cons.mpr ⟨here, clean⟩, fails, stopped⟩
  | @halted _ _ attempt _ tries failed failFast =>
    obtain ⟨p, code | failure⟩ := attempt
    · exact absurd rfl failed
    · refine .inr ⟨failFast, by simp, [], _, failure, rfl, by simp, rfl, ?_⟩
      simp [Progress.advance, failFast]
  | ended effect => cases isNone

/-- An outcome accounts for the attempts to convert the files of a directory. -/
structure Accounts (settings : Settings) (paths : List (Path × Path)) (attempts : List Attempt)
    (outcome : RunOutcome) : Prop where
  order : attempts.map Attempt.paths <+: paths
  generated : outcome.metadata.generated = some (attempts.foldl Attempt.record [])
  failures : outcome.metadata.failures = some (attempts.filterMap Attempt.failed?)
  once : ∀ attempt ∈ attempts, attempt.paths.1.codes ∈
    (attempts.filterMap Attempt.failed?).map Prod.fst ↔ attempt.converted? = none
  whole : settings.failFast = false → attempts.map Attempt.paths = paths
  converted : settings.failFast = false →
    outcome.data.getD [] = (attempts.filterMap Attempt.converted?).map Prod.fst
  succeeds : settings.failFast = false →
    (outcome.status = .success ↔ attempts.filterMap Attempt.failed? = [])
  warns : settings.failFast = false →
    (outcome.status = .warning ↔ attempts.filterMap Attempt.failed? ≠ [] ∧
      attempts.filterMap Attempt.converted? ≠ [])
  fails : settings.failFast = false →
    (outcome.status = .error ↔ attempts.filterMap Attempt.failed? ≠ [] ∧
      attempts.filterMap Attempt.converted? = [])
  halts : settings.failFast = true →
    (attempts.map Attempt.paths = paths ∧ (∀ attempt ∈ attempts, attempt.failed? = none) ∧
      outcome.status = .success) ∨
    ∃ done last failure, attempts = done ++ [last] ∧ (∀ attempt ∈ done, attempt.failed? = none) ∧
      last.verdict = .failed failure ∧ outcome.status = .error ∧ outcome.error = some failure

theorem failed?_eq_none_iff : attempt.failed? = none ↔ attempt.converted? ≠ none := by
  obtain ⟨p, code | failure⟩ := attempt <;> simp [Attempt.failed?, Attempt.converted?]

/-- Among attempts on different sources, a source is among the failures exactly if its own attempt
failed. -/
theorem mem_failures_iff (distinct : (attempts.map (·.paths.1.codes)).Nodup)
    (member : attempt ∈ attempts) :
    attempt.paths.1.codes ∈ (attempts.filterMap Attempt.failed?).map Prod.fst ↔
      attempt.converted? = none := by
  have source (attempt : Attempt) (reason : Codes × Text) (failed : attempt.failed? = some reason) :
      reason.1 = attempt.paths.1.codes ∧ attempt.converted? = none := by
    obtain ⟨p, code | failure⟩ := attempt
    · cases failed
    · cases failed
      exact ⟨rfl, rfl⟩
  constructor
  · intro isFailure
    obtain ⟨reason, found, same⟩ := List.mem_map.mp isFailure
    obtain ⟨other, isOther, failed⟩ := List.mem_filterMap.mp found
    obtain ⟨isSource, unconverted⟩ := source other reason failed
    have equal := List.inj_on_of_nodup_map distinct isOther member (isSource.symm.trans same)
    exact equal ▸ unconverted
  · intro unconverted
    cases failed : attempt.failed? with
    | none => exact absurd unconverted (failed?_eq_none_iff.mp failed)
    | some reason =>
      refine List.mem_map.mpr ⟨reason, List.mem_filterMap.mpr ⟨attempt, member, failed⟩, ?_⟩
      exact (source attempt reason failed).1

/-- An outcome tells of all generated codes and all failures. -/
theorem metadata_outcome (progress : Progress) :
    progress.outcome.metadata.generated = some progress.generated ∧
      progress.outcome.metadata.failures = some progress.failures := by
  unfold Progress.outcome
  dsimp only
  split
  · exact ⟨rfl, rfl⟩
  · split
    · exact ⟨rfl, rfl⟩
    · split <;> exact ⟨rfl, rfl⟩

/-- A run that was stopped is a failure. -/
theorem outcome_of_stopped {progress : Progress} {failure : Failure}
    (stopped : progress.stopped = some failure) :
    progress.outcome.status = .error ∧ progress.outcome.error = some failure := by
  unfold Progress.outcome
  rw [stopped]
  exact ⟨rfl, rfl⟩

/-- An outcome tells by its status whether files failed and whether others were converted. -/
theorem outcome_of_unstopped {progress : Progress} (unstopped : progress.stopped = none) :
    progress.outcome.data.getD [] = progress.converted ∧
      (progress.outcome.status = .success ↔ progress.failures = []) ∧
      (progress.outcome.status = .warning ↔ progress.failures ≠ [] ∧ progress.converted ≠ []) ∧
      (progress.outcome.status = .error ↔ progress.failures ≠ [] ∧ progress.converted = []) := by
  obtain ⟨converted, generated, failures, stopped, ended⟩ := progress
  obtain rfl : stopped = none := unstopped
  cases failures with
  | nil => simp [Progress.outcome, Outcome.success]
  | cons failed failures =>
    cases converted with
    | nil => simp [Progress.outcome, Outcome.failure]
    | cons path converted => simp [Progress.outcome, Outcome.warning]

/-- A run that ends accounts for its attempts. -/
theorem Runs.accounts (runs : Runs settings tree paths attempts none after)
    (distinct : (paths.map (·.1.codes)).Nodup) :
    Accounts settings paths attempts (attempts.foldl (Progress.advance settings) {}).outcome := by
  have isOpen : Progress.Open {} := ⟨rfl, rfl⟩
  have extent := runs.extent isOpen
  have order : attempts.map Attempt.paths <+: paths := by
    rcases extent with ⟨whole, -⟩ | ⟨-, front, -⟩
    · exact whole ▸ List.prefix_rfl
    · exact front
  -- Failures are listed by their paths. No path has two attempts, so none is overwritten.
  have fresh : (attempts.map (·.paths.1.codes)).Nodup := by
    have taken := (order.map (·.1.codes)).sublist
    rw [List.map_map] at taken
    exact distinct.sublist taken
  have converted := converted_foldl_advance settings attempts {}
  have generated := generated_foldl_advance settings attempts {}
  have failures := failures_foldl_advance settings attempts {} fresh
  rw [List.nil_append] at converted failures
  generalize attempts.foldl (Progress.advance settings) {} = progress at *
  have facts := metadata_outcome progress
  have lax (lax : settings.failFast = false) :
      attempts.map Attempt.paths = paths ∧ progress.stopped = none := by
    rcases extent with ⟨whole, -, unstopped⟩ | ⟨failFast, -⟩
    · exact ⟨whole, unstopped⟩
    · exact Bool.noConfusion (lax.symm.trans failFast)
  have status (isLax : settings.failFast = false) := outcome_of_unstopped (lax isLax).2
  rw [converted, failures] at status
  simp only [ne_eq, List.map_eq_nil_iff] at status
  exact {
    order
    generated := facts.1.trans (congrArg some generated)
    failures := facts.2.trans (congrArg some failures)
    once := fun attempt member => mem_failures_iff fresh member
    whole := fun isLax => (lax isLax).1
    converted := fun isLax => (status isLax).1
    succeeds := fun isLax => (status isLax).2.1
    warns := fun isLax => (status isLax).2.2.1
    fails := fun isLax => (status isLax).2.2.2
    halts := fun failFast => by
      rcases extent with ⟨whole, clean, unstopped⟩ |
        ⟨-, -, done, last, failure, made, clean, fails, stopped⟩
      · refine .inl ⟨whole, clean failFast, (outcome_of_unstopped unstopped).2.1.mpr ?_⟩
        rw [failures, List.filterMap_eq_nil_iff]
        exact clean failFast
      · exact .inr ⟨done, last, failure, made, clean, fails, outcome_of_stopped stopped⟩ }

/-- The conversion of a directory whose files are mapped to writable paths has an outcome. It accounts
for the attempts to convert the files, which were made one after the other. Nothing was removed, and
only paths under which code is recorded lead to files with another content than before: they hold this
code. A dry run leaves everything as it was. -/
theorem directory_conversion_accounts {input output : Codes} {source : Path}
    (wellFormed : tree.WellFormed) (checked : checkSource tree input = .ok source)
    (isDirectory : (tree.walk source).isDirectory = true)
    (mapped : outputPaths tree source.codes output settings.inputMask settings.outputMask = .ok paths)
    (writable : settings.dryRun = true ∨ ∀ p ∈ paths, p.2.hazard? = none) (log : List LogRecord) :
    ∃ outcome after log' attempts,
      convertPath input (some output) settings ⟨tree, log⟩ = (.ok outcome, ⟨after, log'⟩) ∧
      Runs settings tree paths attempts none after ∧ Accounts settings paths attempts outcome ∧
      Frame settings paths tree (attempts.foldl Attempt.record []) after ∧
      (settings.dryRun = false → Path.slash ∉ settings.outputMask →
        ∀ entry ∈ attempts.foldl Attempt.record [],
          ∃ place, after.walk (Path.parse entry.1) = .file place (Encoding.encode entry.2)) := by
  have isMapped := fun p (member : p ∈ paths) => mapped_of_mem wellFormed mapped member
  have proper : ∀ p ∈ paths, p.1.Proper ∧ p.2.Proper := fun p member => (isMapped p member).proper
  have ran := convertPath_eq checked isDirectory mapped log
  have isOpen : Progress.Open {} := ⟨rfl, rfl⟩
  obtain ⟨attempts, ended, after, log', runs, folded⟩ := exists_run isOpen proper tree _
  obtain rfl := runs.not_ended proper (fun p member => (isMapped p member).leads_to_file) writable
  have distinct : (paths.map (·.1.codes)).Nodup := by
    have shown : paths.map (·.1.codes) = (paths.map Prod.fst).map Path.codes := by
      rw [List.map_map]
      rfl
    rw [shown]
    refine (nodup_of_outputPaths wellFormed mapped).map_on fun first isFirst second isSecond same => ?_
    obtain ⟨p, member, rfl⟩ := List.mem_map.mp isFirst
    obtain ⟨q, member', rfl⟩ := List.mem_map.mp isSecond
    exact Path.eq_of_codes_eq (proper p member).1 (proper q member').1 same
  have frame := (Frame.init settings paths tree).runs runs (fun _ => id) proper
  refine ⟨_, after, log', attempts, ?_, runs, runs.accounts distinct, frame, fun wet noSlash => ?_⟩
  · rw [ran, folded]
    rfl
  · have apart : Apart paths := fun p first q second after place content content' =>
      (isMapped p first).eq_of_walk noSlash (isMapped q second)
    have holds : Holds [] tree := ⟨List.nodup_nil, by simp⟩
    exact (holds.runs (Frame.init settings paths tree) wet apart runs (fun _ => id) proper).leads

/-- A file that can be converted and one that cannot, in a directory. -/
def mixedTests : FileTree :=
  .ofNames [(["d"], .directory),
    (["d", "aTest.js"], .file (Encoding.encode "tests.a.add(\x7bname: 'b'\x7d);".toList)),
    (["d", "bTest.js"], .file (Encoding.encode "none".toList))]

/-- The new paths of the two files. -/
def mixedPaths : List (Path × Path) :=
  [(Path.parse (.ofString "d/aTest.js"), Path.parse (.ofString "o/aSpec.js")),
    (Path.parse (.ofString "d/bTest.js"), Path.parse (.ofString "o/bSpec.js"))]

/-- The two files are mapped. -/
theorem mixedTests_mapped :
    outputPaths mixedTests (.ofString "d") (.ofString "o") (.ofString "*Test.js")
      (.ofString "*Spec.js") = .ok mixedPaths :=
  outputPaths_eq_ok (by rfl) (by decide +kernel) (by decide +kernel)

/-- The attempts for a directory with a good and a bad file are accounted for. -/
theorem mixedTests_accounted :
    ∃ outcome after log', ∃ attempts : List Attempt,
      convertPath (.ofString "d") (some (.ofString "o")) {} ⟨mixedTests, []⟩ =
        (.ok outcome, ⟨after, log'⟩) ∧
      attempts.map Attempt.paths = mixedPaths ∧
      outcome.metadata.generated = some (attempts.foldl Attempt.record []) ∧
      ∀ entry ∈ attempts.foldl Attempt.record [],
        ∃ place, after.walk (Path.parse entry.1) = .file place (Encoding.encode entry.2) := by
  have wellFormed : mixedTests.WellFormed := by decide +kernel
  have checked : checkSource mixedTests (.ofString "d") = .ok (Path.parse (.ofString "d")) := by rfl
  have isDirectory : (mixedTests.walk (Path.parse (.ofString "d"))).isDirectory = true := by
    decide +kernel
  have mapped : outputPaths mixedTests (Path.parse (.ofString "d")).codes (.ofString "o")
      ({} : Settings).inputMask ({} : Settings).outputMask = _ := mixedTests_mapped
  obtain ⟨outcome, after, log', attempts, ran, -, accounts, -, holds⟩ :=
    directory_conversion_accounts wellFormed checked isDirectory mapped (.inr (by decide +kernel)) []
  exact ⟨outcome, after, log', attempts, ran, accounts.whole rfl, accounts.generated,
    holds rfl (by decide +kernel)⟩

/-- A mask with a NUL, which settings accept. -/
def nulMask : Codes :=
  .ofString "*\x00.js"

/-- A directory is mapped to paths, but its conversion has no outcome. -/
theorem mixedTests_without_outcome :
    ∃ settings paths, Settings.ofValues PlainValue.coercions
        [("output_mask".toList, .string nulMask)] = .ok settings ∧
      mixedTests.WellFormed ∧
      checkSource mixedTests (.ofString "d") = .ok (Path.parse (.ofString "d")) ∧
      (mixedTests.walk (Path.parse (.ofString "d"))).isDirectory = true ∧
      outputPaths mixedTests (.ofString "d") (.ofString "o") settings.inputMask settings.outputMask =
        .ok paths ∧
      (convertPath (.ofString "d") (some (.ofString "o")) settings ⟨mixedTests, []⟩).1 =
        .error (.hazard .nul) := by
  have mapped : outputPaths mixedTests (Path.parse (.ofString "d")).codes (.ofString "o")
      (.ofString "*Test.js") nulMask =
        .ok [(Path.parse (.ofString "d/aTest.js"), ⟨0, [.ofString "o", .ofString "a\x00.js"]⟩),
          (Path.parse (.ofString "d/bTest.js"), ⟨0, [.ofString "o", .ofString "b\x00.js"]⟩)] :=
    outputPaths_eq_ok (by rfl) (by decide +kernel) (by decide +kernel)
  obtain ⟨failure, ran, isNul⟩ := exists_eq_error_of_any (by
    rw [convertPath_eq (by rfl) (by decide +kernel) mapped]
    decide +kernel :
    (failure? (convertPath (.ofString "d") (some (.ofString "o")) { outputMask := nulMask }
      ⟨mixedTests, []⟩).1).any (· == .hazard .nul) = true)
  obtain rfl := beq_iff_eq.mp isNul
  exact ⟨{ outputMask := nulMask }, _, by rfl, by decide +kernel, by rfl, by decide +kernel,
    mapped, ran⟩

end JasmineConversion
