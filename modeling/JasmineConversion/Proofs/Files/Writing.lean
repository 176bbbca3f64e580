import JasmineConversion.Files.Convert
import JasmineConversion.Proofs.Files.Tree
import JasmineConversion.Proofs.Outcome

/-! # What the conversion of a file does to the files

A conversion that fails makes directories at most. One that succeeds has put the generated code where
the target path leads, if it is no dry run, and has changed nothing else but made directories. Only a
source that cannot be looked up or a NUL in the target path ends the operation without an outcome.
-/

namespace JasmineConversion

open Text FileTree

namespace FileTree

variable {tree made after : FileTree} {path : Path} {place : Place}

/-- A path leads to the same file after directories are made. -/
theorem Grows.walk_file {content : List UInt8} (grows : Grows tree after)
    (leads : tree.walk path = .file place content) : after.walk path = .file place content := by
  obtain ⟨isNamed, there⟩ := walk_eq_file_iff.mp leads
  exact walk_eq_file_iff.mpr ⟨grows.keeps.names isNamed, grows.get?_of_isSome there⟩

/-- A code is what the conversion of the file at a path gives. -/
def Generates (settings : Settings) (tree : FileTree) (source : Path) (code : Text) : Prop :=
  ∃ place content text, tree.walk source = .file place content ∧ Encoding.read content = .ok text ∧
    convert settings text = .ok code

/-- Code is put where a path leads, after the directories on the way are made. -/
def Puts (tree : FileTree) (target : Path) (code : Text) (after : FileTree) : Prop :=
  ∃ made, Grows tree made ∧ made.write target (Encoding.encode code) = .ok after

end FileTree

variable {tree after : FileTree} {source target : Path} {settings : Settings}

/-- Making the directories on the way to a path makes nothing else. -/
theorem ensureParent_grows (tree : FileTree) (target : Path) :
    Grows tree (ensureParent tree target).1 := by
  unfold ensureParent
  split
  · exact .refl tree
  · have grows := ensureDirectories_grows tree target.slashes target.parent.parts.reverse
    split <;> next ran => exact (congrArg Prod.fst ran : (tree.ensureParent target).1 = _) ▸ grows

/-- Once the directories on the way to a path are made, there is the one that it is in. -/
theorem ensureParent_leads (done : (ensureParent tree target).2 = .ok ()) :
    ((ensureParent tree target).1.walk target.parent).isDirectory = true := by
  have leads : (tree.ensureParent target).2 = none →
      ((tree.ensureParent target).1.walk target.parent).isDirectory = true := by
    intro made
    have leads := ensureDirectories_leads made
    rwa [List.reverse_reverse] at leads
  cases clean : target.parent.hazard? with
  | some hazard => simp [ensureParent, clean] at done
  | none =>
    simp only [ensureParent, clean] at done ⊢
    generalize tree.ensureParent target = made at done leads ⊢
    obtain ⟨made, - | error⟩ := made
    · exact leads rfl
    · cases done

/-- What keeps a path from being written to: that of the directory that it is in comes first. -/
def Path.writeHazard? (path : Path) : Option Hazard :=
  path.parent.hazard?.or path.hazard?

/-- A path that can be handed to the system can be written to by its name. -/
theorem Path.writeHazard?_eq_none {path : Path} (clean : path.hazard? = none) :
    path.writeHazard? = none := by
  rw [writeHazard?, clean, hazard?_parent clean]
  rfl

/-- Directories that are not made are reported, unless their path cannot be handed to the system. -/
theorem ensureParent_error {failure : Failure}
    (failed : (ensureParent tree target).2 = .error failure) :
    (∃ error, failure = .path error) ∨
      ∃ hazard, failure = .hazard hazard ∧ target.writeHazard? = some hazard := by
  unfold ensureParent at failed
  split at failed
  · next hazard found =>
    cases failed
    exact .inr ⟨hazard, rfl, by rw [Path.writeHazard?, found]; rfl⟩
  · split at failed
    · cases failed
    · cases failed
      exact .inl ⟨_, rfl⟩

/-- Where directories are made, nothing keeps the path of the last one from being handed to the system. -/
theorem hazard?_of_ensureParent (done : (ensureParent tree target).2 = .ok ()) :
    target.parent.hazard? = none := by
  cases clean : target.parent.hazard? with
  | none => rfl
  | some hazard => simp [ensureParent, clean] at done

namespace FileSession

variable {α β : Type}

/-- What a step does to the files, whatever the log is. -/
def Does (step : FileSession α) (tree : FileTree) (effect : α → FileTree → Prop) : Prop :=
  ∀ log, effect (step ⟨tree, log⟩).1 (step ⟨tree, log⟩).2.files

namespace Does

variable {effect : α → FileTree → Prop}

theorem pure {value : α} (here : effect value tree) : Does (Pure.pure value) tree effect :=
  fun _ => here

/-- Two steps have the effect that the second has after the first. -/
theorem bind {step : FileSession β} {next : β → FileSession α} {middle : β → FileTree → Prop}
    (first : Does step tree middle)
    (second : ∀ value between, middle value between → Does (next value) between effect) :
    Does (step >>= next) tree effect :=
  fun log => second _ _ (first log) _

theorem get {next : Workspace → FileSession α} (rest : ∀ log, Does (next ⟨tree, log⟩) tree effect) :
    Does (MonadState.get >>= next) tree effect :=
  fun log => rest log log

/-- What is done after the files are set is done to these files. -/
theorem set {files : FileTree} {log : List LogRecord} {next : PUnit → FileSession α}
    (rest : Does (next ⟨⟩) files effect) :
    Does (MonadStateOf.set (⟨files, log⟩ : Workspace) >>= next) tree effect :=
  fun _ => rest log

theorem note {records : List LogRecord} {next : Unit → FileSession α}
    (rest : Does (next ()) tree effect) : Does (FileSession.note records >>= next) tree effect :=
  fun log => rest (log ++ records)

/-- A step has two effects if it has each of them. -/
theorem and {step : FileSession α} {effect' : α → FileTree → Prop} (first : Does step tree effect)
    (second : Does step tree effect') :
    Does step tree fun value after => effect value after ∧ effect' value after :=
  fun log => ⟨first log, second log⟩

end Does

/-- What an attempt to write code does. -/
inductive WriteEffect (tree : FileTree) (target : Path) (code : Text) :
    Except Failure Unit → FileTree → Prop
  | written {after : FileTree} (puts : Puts tree target code after) :
      WriteEffect tree target code (.ok ()) after
  | unmade {after : FileTree} {error : PathError} (grows : Grows tree after) :
      WriteEffect tree target code (.error (.path error)) after
  | refused {after : FileTree} {error : FileError} (grows : Grows tree after)
      (above : (after.walk target.parent).isDirectory = true) :
      WriteEffect tree target code (.error (.file error)) after
  | ended {after : FileTree} {hazard : Hazard} (grows : Grows tree after)
      (cause : target.writeHazard? = some hazard) :
      WriteEffect tree target code (.error (.hazard hazard)) after

/-- Writing a code puts it there, or is refused and makes at most directories. -/
theorem writeCode_does (tree : FileTree) (target : Path) (code : Text) :
    Does (writeCode target code) tree (WriteEffect tree target code) := by
  refine .get fun log => ?_
  have grows := ensureParent_grows tree target
  have leads := @ensureParent_leads tree target
  have error := @ensureParent_error tree target
  have clean := @hazard?_of_ensureParent tree target
  generalize ensureParent tree target = made at grows leads error clean ⊢
  obtain ⟨made, result⟩ := made
  refine .set ?_
  cases result with
  | error failure =>
    rcases error rfl with ⟨error, rfl⟩ | ⟨hazard, rfl, cause⟩
    · exact .pure (.unmade grows)
    · exact .pure (.ended grows cause)
  | ok =>
    dsimp only
    split
    · next hazard cause =>
      exact .pure (.ended grows (by rw [Path.writeHazard?, clean rfl, cause]; rfl))
    · split
      · exact .pure (.refused grows (leads rfl))
      · next ran => exact .set (.pure (.written ⟨made, grows, ran⟩))

/-- What the conversion of a file does. -/
inductive FileEffect (settings : Settings) (tree : FileTree) (source target : Path) :
    Except Failure FileOutcome → FileTree → Prop
  | converted {code : Text} {facts : FileFacts} {after : FileTree}
      (generates : Generates settings tree source code) (generated : facts.generated = some code)
      (stored : if settings.dryRun = true then after = tree else Puts tree target code after) :
      FileEffect settings tree source target (.ok (.success target.codes facts)) after
  | failed {failure : Failure} {facts : FileFacts} {after : FileTree} (grows : Grows tree after)
      (dry : settings.dryRun = true → after = tree) :
      FileEffect settings tree source target (.ok (.failure failure facts)) after
  | ended {failure : Failure} {after : FileTree} (grows : Grows tree after)
      (dry : settings.dryRun = true → after = tree)
      (cause : (tree.walk source).isThere = false ∨ settings.dryRun = false ∧ target.hazard? ≠ none) :
      FileEffect settings tree source target (.error failure) after

/-- An attempt to write that the directory of the target refuses is reported. -/
theorem writeFailure_reports (proper : target.Proper) (facts : FileFacts) (error : FileError)
    {between : FileTree} (above : (between.walk target.parent).isDirectory = true)
    (log : List LogRecord) :
    ∃ facts', writeFailure target facts (.file error) ⟨between, log⟩ =
      (.ok (.failure (.file error) facts'), ⟨between, log⟩) := by
  have advised : ∃ advice, (if error.fault = .absent then Remedy.absent else .nothing).suggestions
      between false target.codes = .ok advice := by
    split
    · unfold Remedy.suggestions
      rw [Path.parse_codes proper]
      cases leads : between.walk target.parent with
      | directory place =>
        simp only [look, leads]
        exact ⟨_, rfl⟩
      | _ =>
        rw [leads] at above
        cases above
    · exact ⟨[], rfl⟩
  obtain ⟨advice, advised⟩ := advised
  refine ⟨{ facts with suggestions := some advice }, ?_⟩
  simp only [writeFailure, bind, StateT.bind, get, getThe, MonadStateOf.get, StateT.get, pure, advised]
  rfl

/-- A failed attempt to write is reported, unless the path cannot be handed to the system. -/
theorem writeFailure_does (proper : target.Proper) {facts : FileFacts} {failure : Failure} {code : Text}
    {between : FileTree} (wet : settings.dryRun = false)
    (effect : WriteEffect tree target code (.error failure) between) :
    Does (writeFailure target facts failure) between (FileEffect settings tree source target) := by
  have noDry {after : FileTree} : settings.dryRun = true → after = tree := by
    simp [wet]
  cases effect with
  | unmade grows => exact .pure (.failed grows noDry)
  | ended grows cause =>
    refine .pure (.ended grows noDry (.inr ⟨wet, fun clean => ?_⟩))
    cases (Path.writeHazard?_eq_none clean).symm.trans cause
  | refused grows above =>
    intro log
    obtain ⟨facts', ran⟩ := writeFailure_reports proper facts _ above log
    rw [ran]
    exact .failed grows noDry

/-- Converting a text writes its code, or fails and makes at most directories. -/
theorem convertText_does (proper : target.Proper) {place : Place} {content : List UInt8}
    {text : Text} (leads : tree.walk source = .file place content)
    (readable : Encoding.read content = .ok text) :
    Does (convertText source (some target) settings text) tree
      (FileEffect settings tree source target) := by
  refine .note ?_
  split
  · exact .note (.pure (.failed (.refl tree) fun _ => rfl))
  · next code converted =>
    have generates : Generates settings tree source code :=
      ⟨place, content, text, leads, readable, converted⟩
    dsimp only
    cases dry : settings.dryRun with
    | true =>
      refine .pure (.converted generates rfl ?_)
      rw [if_pos dry]
    | false =>
      refine .bind (writeCode_does tree target code) fun result between effect => ?_
      cases result with
      | error failure => exact writeFailure_does proper dry effect
      | ok =>
        cases effect with
        | written puts =>
          refine .note (.pure (.converted generates rfl ?_))
          rwa [if_neg (by simp [dry])]

/-- A source that is looked up is the path that the text is read as. It is blank, or too long to be
looked up, or leads nowhere, or is there. -/
theorem checkSource_cases (tree : FileTree) (source : Codes) :
    (∃ error, checkSource tree source = .error (.path error) ∧
      (source.isBlank = true ∨ tree.walk (Path.parse source) ≠ .tooLong ∧
        (tree.walk (Path.parse source)).isThere = false)) ∨
      (checkSource tree source = .error (.file ⟨.nameTooLong, (Path.parse source).codes⟩) ∧
        source.isBlank = false ∧ tree.walk (Path.parse source) = .tooLong) ∨
      checkSource tree source = .ok (Path.parse source) ∧ source.isBlank = false ∧
        (tree.walk (Path.parse source)).isThere = true := by
  unfold checkSource
  split
  · next blank => exact .inl ⟨_, rfl, .inl blank⟩
  · next shown =>
    have shown : source.isBlank = false := by simpa using shown
    cases leads : tree.walk (Path.parse source) with
    | directory place =>
      exact .inr (.inr ⟨by simp only [look, leads]; rfl, shown, rfl⟩)
    | file place content => exact .inr (.inr ⟨by simp only [look, leads]; rfl, shown, rfl⟩)
    | tooLong => exact .inr (.inl ⟨by simp only [look, leads]; rfl, shown, rfl⟩)
    | _ => exact .inl ⟨_, by simp only [look, leads]; rfl, .inr ⟨by simp, rfl⟩⟩

/-- A target is refused, or is the path that it spells. -/
theorem checkTarget_cases (target : Codes) :
    (∃ error, checkTarget target = .error error) ∨ checkTarget target = .ok (Path.parse target) := by
  unfold checkTarget
  split
  · exact .inl ⟨_, rfl⟩
  · dsimp only
    split
    · exact .inl ⟨_, rfl⟩
    · exact .inr rfl

/-- A conversion with paths that are refused is reported, unless the source cannot be looked up. The
others are those whose texts are given. -/
theorem checkPaths_cases (tree : FileTree) (source target : Codes) :
    (∃ error, checkPaths tree source (some target) = .error (.path error)) ∨
      (∃ failure, checkPaths tree source (some target) = .error failure ∧
        (tree.walk (Path.parse source)).isThere = false) ∨
      checkPaths tree source (some target) = .ok (Path.parse source, some (Path.parse target)) ∧
        ∃ place content, tree.walk (Path.parse source) = .file place content := by
  unfold checkPaths
  rcases checkSource_cases tree source with
    ⟨error, refused, -⟩ | ⟨refused, -, tooLong⟩ | ⟨found, -, there⟩
  · exact .inl ⟨error, by rw [refused]; rfl⟩
  · exact .inr (.inl ⟨_, by rw [refused]; rfl, by rw [tooLong]; rfl⟩)
  · rw [found]
    cases leads : tree.walk (Path.parse source) with
    | directory place =>
      exact .inl ⟨⟨.directorySource, source⟩, by simp only [bind, Except.bind, leads]; rfl⟩
    | file place content =>
      rcases checkTarget_cases target with ⟨error, refused⟩ | accepted
      · exact .inl ⟨error, by simp only [bind, Except.bind, leads, refused]; rfl⟩
      · exact .inr (.inr ⟨by simp only [bind, Except.bind, leads, accepted]; rfl, place, content, rfl⟩)
    | _ =>
      rw [leads] at there
      cases there

/-- The conversion of a file has one of these effects, whatever the state of the files is. -/
theorem convertFile_does (tree : FileTree) (source target : Codes) (settings : Settings) :
    Does (convertFile source (some target) settings) tree
      (FileEffect settings tree (Path.parse source) (Path.parse target)) := by
  refine .get fun log => ?_
  dsimp only
  rcases checkPaths_cases tree source target with
    ⟨error, refused⟩ | ⟨failure, refused, absent⟩ | ⟨found, place, content, leads⟩
  · rw [refused]
    exact .pure (.failed (.refl tree) fun _ => rfl)
  · rw [refused]
    split
    · next same => exact .pure (.failed (.refl tree) fun _ => rfl)
    · next same =>
      cases same
      exact .pure (.ended (.refl tree) (fun _ => rfl) (.inl absent))
    · next same => cases same
  · rw [found]
    dsimp only
    rw [leads]
    dsimp only
    split
    · exact .pure (.failed (.refl tree) fun _ => rfl)
    · next text readable => exact .note (convertText_does (Path.proper_parse target) leads readable)

/-- Paths that are shown by their texts are those that the texts are read as. -/
theorem convertFile_does_of_proper (tree : FileTree) {source target : Path} (proper : source.Proper)
    (proper' : target.Proper) (settings : Settings) :
    Does (convertFile source.codes (some target.codes) settings) tree
      (FileEffect settings tree source target) := by
  have does := convertFile_does tree source.codes target.codes settings
  rwa [Path.parse_codes proper, Path.parse_codes proper'] at does

end FileSession

end JasmineConversion
