import Mathlib.Data.List.Nodup
import JasmineConversion.Proofs.Files.Mapping
import JasmineConversion.Proofs.Files.Writing

/-! # Converting the files of a directory one after the other

The files of a directory are converted in the order of the mapping, each in the state of the files that
those before it leave. What was generated is under the paths it was written to. A file that was there
before has another content afterwards only if one of these paths leads to it.
-/

namespace JasmineConversion

open Text FileTree FileSession

/-- What became of a file: it was converted, or it failed. -/
inductive Verdict where
  | converted (code : Text)
  | failed (failure : Failure)

/-- An attempt to convert a file to a path. -/
structure Attempt where
  paths : Path × Path
  verdict : Verdict

namespace Attempt

/-- The path that a file was converted to, and the code. -/
def converted? : Attempt → Option (Codes × Text)
  | ⟨paths, .converted code⟩ => some (paths.2.codes, code)
  | ⟨_, .failed _⟩ => none

/-- The path of a file that failed, and the reason. -/
def failed? : Attempt → Option (Codes × Text)
  | ⟨paths, .failed failure⟩ => some (paths.1.codes, failure.message.toList)
  | ⟨_, .converted _⟩ => none

/-- The code generated so far, with that of one more attempt. -/
def record (generated : Entries Codes Text) (attempt : Attempt) : Entries Codes Text :=
  match attempt.converted? with
  | some (path, code) => Entries.put path code generated
  | none => generated

/-- An attempt that has converted a file records its code. -/
theorem record_of_converted {attempt : Attempt} {path : Codes} {code : Text}
    (converted : attempt.converted? = some (path, code)) (generated : Entries Codes Text) :
    attempt.record generated = Entries.put path code generated := by
  rw [record, converted]

theorem record_of_failed {attempt : Attempt} (failed : attempt.converted? = none)
    (generated : Entries Codes Text) : attempt.record generated = generated := by
  rw [record, failed]

end Attempt

/-- An attempt that is really made, with the files before and after it. -/
inductive Tries (settings : Settings) (tree : FileTree) : Attempt → FileTree → Prop
  | converted {paths : Path × Path} {code : Text} {facts : FileFacts} {after : FileTree}
      {log log' : List LogRecord}
      (ran : convertFile paths.1.codes (some paths.2.codes) settings ⟨tree, log⟩ =
        (.ok (.success paths.2.codes facts), ⟨after, log'⟩))
      (generated : facts.generated = some code) : Tries settings tree ⟨paths, .converted code⟩ after
  | failed {paths : Path × Path} {failure : Failure} {facts : FileFacts} {after : FileTree}
      {log log' : List LogRecord}
      (ran : convertFile paths.1.codes (some paths.2.codes) settings ⟨tree, log⟩ =
        (.ok (.failure failure facts), ⟨after, log'⟩)) :
      Tries settings tree ⟨paths, .failed failure⟩ after

/-- Files are converted one after the other: all of them, or up to the first that fails if settings say
so, or up to one whose conversion has no outcome. -/
inductive Runs (settings : Settings) :
    FileTree → List (Path × Path) → List Attempt → Option Failure → FileTree → Prop
  | done {tree : FileTree} : Runs settings tree [] [] none tree
  | next {tree between after : FileTree} {attempt : Attempt} {paths : List (Path × Path)}
      {attempts : List Attempt} {ended : Option Failure} (tries : Tries settings tree attempt between)
      (goesOn : attempt.failed? = none ∨ settings.failFast = false)
      (further : Runs settings between paths attempts ended after) :
      Runs settings tree (attempt.paths :: paths) (attempt :: attempts) ended after
  | halted {tree after : FileTree} {attempt : Attempt} {paths : List (Path × Path)}
      (tries : Tries settings tree attempt after) (failed : attempt.failed? ≠ none)
      (failFast : settings.failFast = true) :
      Runs settings tree (attempt.paths :: paths) [attempt] none after
  | ended {tree after : FileTree} {p : Path × Path} {paths : List (Path × Path)} {failure : Failure}
      (effect : FileEffect settings tree p.1 p.2 (.error failure) after) :
      Runs settings tree (p :: paths) [] (some failure) after

variable {settings : Settings} {tree between after : FileTree} {paths all : List (Path × Path)}
  {attempt : Attempt} {attempts : List Attempt} {ended : Option Failure}

/-! ## The loop -/

/-- What has been done, with one more attempt. -/
def FileSession.Progress.advance (settings : Settings) (progress : Progress) (attempt : Attempt) :
    Progress :=
  match attempt.verdict with
  | .converted code =>
    { progress with
      converted := progress.converted ++ [attempt.paths.2.codes]
      generated := Entries.put attempt.paths.2.codes code progress.generated }
  | .failed failure =>
    { progress with
      failures := Entries.put attempt.paths.1.codes failure.message.toList progress.failures
      stopped := if settings.failFast then some failure else none }

/-- The conversion goes on. -/
structure FileSession.Progress.Open (progress : Progress) : Prop where
  notStopped : progress.stopped = none
  notEnded : progress.ended = none

/-- The next file of an open conversion is attempted, or ends the conversion. -/
theorem convertNext_cases {progress : Progress} (isOpen : progress.Open) {p : Path × Path}
    (proper : p.1.Proper ∧ p.2.Proper) (log : List LogRecord) :
    ∃ after log', (∃ attempt : Attempt, attempt.paths = p ∧ Tries settings tree attempt after ∧
        convertNext settings progress p ⟨tree, log⟩ =
          (progress.advance settings attempt, ⟨after, log'⟩)) ∨
      ∃ failure, FileEffect settings tree p.1 p.2 (.error failure) after ∧
        convertNext settings progress p ⟨tree, log⟩ =
          ({ progress with ended := some failure }, ⟨after, log'⟩) := by
  obtain ⟨files, codes, reasons, stopped, ended⟩ := progress
  obtain ⟨rfl, rfl⟩ : stopped = none ∧ ended = none := ⟨isOpen.notStopped, isOpen.notEnded⟩
  have effect := convertFile_does_of_proper tree proper.1 proper.2 settings log
  generalize ran : convertFile p.1.codes (some p.2.codes) settings ⟨tree, log⟩ = result at effect
  obtain ⟨outcome, after, log'⟩ := result
  unfold convertNext
  simp only [Option.isSome_none, Bool.or_self, Bool.false_eq_true, if_false, bind, StateT.bind, ran]
  cases effect with
  | @converted code facts _ generates generated stored =>
    refine ⟨after, log', .inl ⟨⟨p, .converted code⟩, rfl, .converted ran generated, ?_⟩⟩
    simp only [Outcome.success, generated]
    rfl
  | @failed failure facts _ grows dry =>
    exact ⟨after, _, .inl ⟨⟨p, .failed failure⟩, rfl, .failed ran, rfl⟩⟩
  | ended grows dry cause =>
    exact ⟨after, log', .inr ⟨_, .ended grows dry cause, rfl⟩⟩

/-- Nothing more is done once a failure has stopped or ended the conversion. -/
theorem foldlM_convertNext_of_closed {progress : Progress}
    (closed : (progress.stopped.isSome || progress.ended.isSome) = true) (paths : List (Path × Path))
    (workspace : Workspace) :
    paths.foldlM (convertNext settings) progress workspace = (progress, workspace) := by
  induction paths with
  | nil => rfl
  | cons p paths ih =>
    rw [List.foldlM_cons]
    have here : convertNext settings progress p = pure progress := by
      rw [convertNext, if_pos closed]
    rw [here]
    exact ih

/-- An attempt does not end the conversion. -/
theorem ended_advance {progress : Progress} (isOpen : progress.Open) (attempt : Attempt) :
    (progress.advance settings attempt).ended = none := by
  unfold Progress.advance
  split <;> exact isOpen.notEnded

/-- An attempt stops the conversion if and only if it fails and settings say so. -/
theorem fails_of_advance {progress : Progress} (isOpen : progress.Open) {failure : Failure}
    (stops : (progress.advance settings attempt).stopped = some failure) :
    attempt.failed? ≠ none ∧ settings.failFast = true := by
  obtain ⟨paths, code | reason⟩ := attempt
  · rw [Progress.advance, isOpen.notStopped] at stops
    cases stops
  · cases failFast : settings.failFast with
    | false => simp [Progress.advance, failFast] at stops
    | true => exact ⟨by simp [Attempt.failed?], rfl⟩

/-- A conversion that is not stopped by an attempt goes on after a success, or after a failure that does
not stop it. -/
theorem goesOn_of_advance {progress : Progress}
    (open' : (progress.advance settings attempt).stopped = none) :
    attempt.failed? = none ∨ settings.failFast = false := by
  obtain ⟨paths, code | reason⟩ := attempt
  · exact .inl rfl
  · cases failFast : settings.failFast with
    | false => exact .inr rfl
    | true => simp [Progress.advance, failFast] at open'

/-- The conversion of files is a run of attempts. -/
theorem exists_run {progress : Progress} (isOpen : progress.Open)
    (proper : ∀ p ∈ paths, p.1.Proper ∧ p.2.Proper) (tree : FileTree) (log : List LogRecord) :
    ∃ attempts ended after log', Runs settings tree paths attempts ended after ∧
      paths.foldlM (convertNext settings) progress ⟨tree, log⟩ =
        ({ attempts.foldl (Progress.advance settings) progress with ended }, ⟨after, log'⟩) := by
  induction paths generalizing progress tree log with
  | nil =>
    refine ⟨[], none, tree, log, .done, ?_⟩
    rw [← isOpen.notEnded]
    rfl
  | cons p paths ih =>
    obtain ⟨here, further⟩ := List.forall_mem_cons.mp proper
    rw [List.foldlM_cons]
    simp only [bind, StateT.bind]
    obtain ⟨between, log', ⟨attempt, rfl, tries, ran⟩ | ⟨failure, effect, ran⟩⟩ :=
      convertNext_cases isOpen here log
    · rw [ran]
      cases halts : (progress.advance settings attempt).stopped with
      | some failure =>
        obtain ⟨failed, failFast⟩ := fails_of_advance isOpen halts
        refine ⟨[attempt], none, between, log', .halted tries failed failFast, ?_⟩
        refine (foldlM_convertNext_of_closed (by rw [halts]; rfl) paths _).trans ?_
        rw [← ended_advance isOpen attempt]
        rfl
      | none =>
        have goesOn := goesOn_of_advance halts
        obtain ⟨attempts, ended, after, log'', runs, rest⟩ :=
          ih ⟨halts, ended_advance isOpen attempt⟩ further between log'
        exact ⟨attempt :: attempts, ended, after, log'', .next tries goesOn runs, rest⟩
    · rw [ran]
      refine ⟨[], some failure, between, log', .ended effect, ?_⟩
      exact foldlM_convertNext_of_closed (by simp) paths _

/-- What is noted about the files of a directory before they are converted. -/
def foundEntry (settings : Settings) (source : Path) (paths : List (Path × Path)) : LogRecord :=
  entry .info ("Found " ++ toString paths.length ++ " file(s) matching '" ++
    settings.inputMask.shown ++ "' in " ++ source.codes.shown)

/-- The conversion of a directory whose files are mapped is the one of these files. -/
theorem convertPath_eq {input output : Codes} {source : Path}
    (checked : checkSource tree input = .ok source)
    (isDirectory : (tree.walk source).isDirectory = true)
    (mapped : outputPaths tree source.codes output settings.inputMask settings.outputMask = .ok paths)
    (log : List LogRecord) :
    convertPath input (some output) settings ⟨tree, log⟩ =
      let run := paths.foldlM (convertNext settings) {}
        ⟨tree, log ++ [foundEntry settings source paths]⟩
      (match run.1.ended with
        | some failure => .error failure
        | none => .ok run.1.outcome, run.2) := by
  have finish (progress : Progress) (workspace : Workspace) :
      ((match progress.ended with
        | some failure => return .error failure
        | none => return .ok progress.outcome) : FileSession (Except Failure RunOutcome)) workspace =
      (match progress.ended with
        | some failure => .error failure
        | none => .ok progress.outcome, workspace) := by
    cases progress.ended <;> rfl
  unfold convertPath
  simp only [bind, StateT.bind, get, getThe, MonadStateOf.get, StateT.get, pure, checked, isDirectory,
    mapped, Bool.not_true, Bool.false_eq_true, if_false]
  exact finish _ _

/-! ## The files -/

/-- An attempt writes the code that it generated, or fails and makes at most directories. -/
theorem Tries.cases (proper : attempt.paths.1.Proper ∧ attempt.paths.2.Proper)
    (tries : Tries settings tree attempt after) :
    (∃ code, attempt.converted? = some (attempt.paths.2.codes, code) ∧
      Generates settings tree attempt.paths.1 code ∧
      if settings.dryRun = true then after = tree else Puts tree attempt.paths.2 code after) ∨
    attempt.converted? = none ∧ Grows tree after ∧ (settings.dryRun = true → after = tree) := by
  cases tries with
  | @converted paths code facts _ log log' ran generated =>
    have effect := convertFile_does_of_proper tree proper.1 proper.2 settings log
    rw [ran] at effect
    cases effect with
    | converted generates generated' stored =>
      obtain rfl := Option.some.inj (generated.symm.trans generated')
      exact .inl ⟨code, rfl, generates, stored⟩
  | @failed paths failure facts _ log log' ran =>
    have effect := convertFile_does_of_proper tree proper.1 proper.2 settings log
    rw [ran] at effect
    cases effect with
    | failed grows dry => exact .inr ⟨rfl, grows, dry⟩

/-- What a conversion leaves: everything that was there, and changes only where code was put. -/
structure Frame (settings : Settings) (paths : List (Path × Path)) (tree : FileTree)
    (generated : Entries Codes Text) (after : FileTree) : Prop where
  keeps : Keeps tree after
  dry : settings.dryRun = true → after = tree
  changed : ∀ place, after.get? place = tree.get? place ∨
    (tree.get? place = none ∧ after.get? place = some .directory) ∨
    ∃ entry ∈ generated, after.walk (Path.parse entry.1) = .file place (Encoding.encode entry.2)
  recorded : ∀ entry ∈ generated, ∃ p ∈ paths, entry.1 = p.2.codes ∧
    ∃ text, convert settings text = .ok entry.2

/-- Nothing is changed before the first attempt. -/
theorem Frame.init (settings : Settings) (paths : List (Path × Path)) (tree : FileTree) :
    Frame settings paths tree [] tree where
  keeps := .refl tree
  dry _ := rfl
  changed _ := .inl rfl
  recorded _ member := by cases member

/-- Making directories changes no file. -/
theorem Frame.grow {generated : Entries Codes Text} (frame : Frame settings paths tree generated between)
    (grows : Grows between after) (dry : settings.dryRun = true → after = between) :
    Frame settings paths tree generated after where
  keeps := frame.keeps.trans grows.keeps
  dry isDry := (dry isDry).trans (frame.dry isDry)
  changed place := by
    rcases frame.changed place with same | ⟨absent, made⟩ | ⟨entry, member, leads⟩
    · rcases grows.entries place with same' | ⟨absent, made⟩
      · exact .inl (same'.trans same)
      · exact .inr (.inl ⟨same ▸ absent, made⟩)
    · exact .inr (.inl ⟨absent, grows.get?_of_isSome made⟩)
    · exact .inr (.inr ⟨entry, member, grows.walk_file leads⟩)
  recorded := frame.recorded

/-- Code that is put at a path takes the place of what the path led to, and of what was recorded for
this path. -/
theorem Frame.put {generated : Entries Codes Text} {p : Path × Path} {code : Text}
    (frame : Frame settings paths tree generated between) (wet : settings.dryRun = false)
    (member : p ∈ paths) (proper : p.2.Proper) (generates : ∃ text, convert settings text = .ok code)
    (puts : Puts between p.2 code after) :
    Frame settings paths tree (Entries.put p.2.codes code generated) after := by
  obtain ⟨made, grows, ran⟩ := puts
  have frame := frame.grow grows fun isDry => by simp [wet] at isDry
  obtain ⟨place, keeps, leads, elsewhere⟩ := exists_place_of_write ran
  refine ⟨frame.keeps.trans keeps, fun isDry => by simp [wet] at isDry, fun other => ?_, ?_⟩
  · by_cases here : other = place
    · subst here
      refine .inr (.inr ⟨_, Entries.mem_put, ?_⟩)
      rw [Path.parse_codes proper]
      exact leads
    · rcases frame.changed other with same | ⟨absent, isDirectory⟩ | ⟨entry, isEntry, leads'⟩
      · exact .inl ((elsewhere other here).trans same)
      · exact .inr (.inl ⟨absent, (elsewhere other here).trans isDirectory⟩)
      · obtain ⟨isNamed, there⟩ := walk_eq_file_iff.mp leads'
        have isNamed := keeps.names isNamed
        have apart : entry.1 ≠ p.2.codes := by
          intro same
          rw [same, Path.parse_codes proper] at isNamed
          exact here (isNamed.unique (walk_eq_file_iff.mp leads).1)
        refine .inr (.inr ⟨entry, Entries.mem_put_of_ne isEntry apart, ?_⟩)
        rw [walk_eq_file_iff, elsewhere other here]
        exact ⟨isNamed, there⟩
  · intro entry isEntry
    rcases Entries.mem_of_mem_put isEntry with rfl | isEntry
    · exact ⟨p, member, rfl, generates⟩
    · exact frame.recorded entry isEntry

/-- An attempt changes no file but the one that it writes. -/
theorem Frame.tries {generated : Entries Codes Text}
    (frame : Frame settings paths tree generated between) (member : attempt.paths ∈ paths)
    (proper : attempt.paths.1.Proper ∧ attempt.paths.2.Proper)
    (tries : Tries settings between attempt after) :
    Frame settings paths tree (attempt.record generated) after := by
  rcases tries.cases proper with ⟨code, converted, generates, stored⟩ | ⟨failed, grows, dry⟩
  · rw [Attempt.record_of_converted converted]
    obtain ⟨_, _, text, -, -, generates⟩ := generates
    split at stored
    · next isDry =>
      subst stored
      refine ⟨frame.keeps, frame.dry, fun place => .inl ?_, fun entry isEntry => ?_⟩
      · rw [frame.dry isDry]
      · rcases Entries.mem_of_mem_put isEntry with rfl | isEntry
        · exact ⟨_, member, rfl, text, generates⟩
        · exact frame.recorded entry isEntry
    · next wet => exact frame.put (Bool.not_eq_true _ ▸ wet) member proper.2 ⟨text, generates⟩ stored
  · rw [Attempt.record_of_failed failed]
    exact frame.grow grows dry

/-- A run changes no files but those that its attempts write. -/
theorem Frame.runs {generated : Entries Codes Text} (frame : Frame settings all tree generated between)
    (runs : Runs settings between paths attempts ended after) (members : ∀ p ∈ paths, p ∈ all)
    (proper : ∀ p ∈ all, p.1.Proper ∧ p.2.Proper) :
    Frame settings all tree (attempts.foldl Attempt.record generated) after := by
  induction runs generalizing generated with
  | done => exact frame
  | @next _ _ _ attempt _ _ _ tries _ _ ih =>
    obtain ⟨here, further⟩ := List.forall_mem_cons.mp members
    exact ih (frame.tries here (proper _ here) tries) further
  | halted tries _ _ =>
    have here := members _ List.mem_cons_self
    exact frame.tries here (proper _ here) tries
  | ended effect =>
    cases effect with
    | ended grows dry cause => exact frame.grow grows dry

end JasmineConversion
