import JasmineConversion.Proofs.Source.Segments

/-! # What failing scans report

A scan that starts where its construct does fails for reasons that lie in the source text alone, and
points at a line of it.
-/

namespace JasmineConversion

open Text Source

/-- The causes that lie in a source text: all but a scan started at a wrong place and a faulty
template. -/
inductive Cause.InSource : Cause → Prop
  | noOuterContainer : InSource .noOuterContainer
  | misplaced (what : Misplaced) : InSource (.misplaced what)
  | unbalanced (bracket : Bracket) : InSource (.unbalanced bracket)
  | unterminatedLiteral (delimiter : Char) : InSource (.unterminatedLiteral delimiter)
  | unterminatedComment : InSource .unterminatedComment
  | assertion (space function : Text) (fault : AssertionFault) :
      InSource (.assertion space function fault)
  | literal (fault : LiteralFault) : InSource (.literal fault)
  | directive (name : Text) (fault : DirectiveFault) : InSource (.directive name fault)

/-- The causes that a reading finds in a piece of code. An outer container that is missing is none of
them. -/
inductive Cause.InCode : Cause → Prop
  | misplaced (what : Misplaced) : InCode (.misplaced what)
  | unbalanced (bracket : Bracket) : InCode (.unbalanced bracket)
  | unterminatedLiteral (delimiter : Char) : InCode (.unterminatedLiteral delimiter)
  | unterminatedComment : InCode .unterminatedComment
  | literal (fault : LiteralFault) : InCode (.literal fault)
  | directive (name : Text) (fault : DirectiveFault) : InCode (.directive name fault)

/-- The causes that a scan finds: something is left open. -/
inductive Cause.OfScan : Cause → Prop
  | unbalanced (bracket : Bracket) : OfScan (.unbalanced bracket)
  | unterminatedLiteral (delimiter : Char) : OfScan (.unterminatedLiteral delimiter)
  | unterminatedComment : OfScan .unterminatedComment

theorem Cause.OfScan.inCode {cause : Cause} (ofScan : cause.OfScan) : cause.InCode := by
  cases ofScan <;> constructor

theorem Cause.InCode.inSource {cause : Cause} (inCode : cause.InCode) : cause.InSource := by
  cases inCode <;> constructor

theorem Cause.InCode.ne {cause : Cause} (inCode : cause.InCode) : cause ≠ .noOuterContainer := by
  rintro rfl
  cases inCode

/-- A cause in code is no assertion. -/
theorem Cause.InCode.ne_assertion {cause : Cause} (inCode : cause.InCode) (space function : Text)
    (fault : AssertionFault) : cause ≠ .assertion space function fault := by
  rintro rfl
  cases inCode

/-- The number of lines of a text. -/
def Text.lineCount (text : Text) : Nat :=
  text.count '\n' + 1

theorem Text.lineAt_le_lineCount (text : Text) (index : Nat) : lineAt text index ≤ lineCount text :=
  Nat.succ_le_succ ((List.take_sublist index text).count_le '\n')

theorem Text.one_le_lineAt (text : Text) (index : Nat) : 1 ≤ lineAt text index :=
  Nat.succ_le_succ (Nat.zero_le _)

theorem Text.lineCount_le_of_sublist {part text : Text} (sublist : part.Sublist text) :
    lineCount part ≤ lineCount text :=
  Nat.succ_le_succ (sublist.count_le '\n')

/-- An error that lies in a source text of so many lines and points at one of them. -/
structure SourceError.Within (lines : Nat) (error : SourceError) : Prop where
  cause : error.cause.InSource
  location : ∃ location, error.location = some location ∧ 1 ≤ location.line ∧ location.line ≤ lines

namespace SourceError.Within

variable {lines lines' : Nat} {error : SourceError}

/-- An error at an index is within the lines of the text. -/
theorem ofIndex {cause : Cause} (inSource : cause.InSource) (text : Text) (index : Nat) :
    (SourceError.ofIndex cause text index).Within (lineCount text) where
  cause := inSource
  location := ⟨_, rfl, Int.ofNat_le.mpr (one_le_lineAt text index),
    Int.ofNat_le.mpr (lineAt_le_lineCount text index)⟩

theorem mono (within : error.Within lines) (le : lines ≤ lines') : error.Within lines' := by
  obtain ⟨location, here, first, last⟩ := within.location
  exact ⟨within.cause, location, here, first, Int.le_trans last (Int.ofNat_le.mpr le)⟩

/-- An error in a piece of a text that begins some lines down lies in the text. -/
theorem relocate (within : error.Within lines) (down : Nat) :
    (error.relocate down).Within (lines + down) := by
  obtain ⟨location, here, first, last⟩ := within.location
  refine ⟨within.cause, { location with line := location.line + down }, ?_, ?_, ?_⟩
  · rw [SourceError.relocate, here, Option.map_some]
  · dsimp only
    omega
  · dsimp only
    omega

end SourceError.Within

/-- An error that lies in a piece of code of so many lines and points at one of them. -/
structure SourceError.Inside (lines : Nat) (error : SourceError) : Prop extends error.Within lines where
  inCode : error.cause.InCode

namespace SourceError.Inside

variable {lines lines' : Nat} {error : SourceError}

theorem ofIndex {cause : Cause} (inCode : cause.InCode) (text : Text) (index : Nat) :
    (SourceError.ofIndex cause text index).Inside (lineCount text) :=
  ⟨.ofIndex inCode.inSource text index, inCode⟩

theorem mono (inside : error.Inside lines) (le : lines ≤ lines') : error.Inside lines' :=
  ⟨inside.toWithin.mono le, inside.inCode⟩

theorem relocate (inside : error.Inside lines) (down : Nat) :
    (error.relocate down).Inside (lines + down) :=
  ⟨inside.toWithin.relocate down, inside.inCode⟩

end SourceError.Inside

/-- An error of a scan over a text of so many lines, which points at one of them. -/
structure SourceError.OfScan (lines : Nat) (error : SourceError) : Prop extends error.Inside lines where
  ofScan : error.cause.OfScan

/-- An error that lies in some source text and points at a line of it. -/
def SourceError.Reported (error : SourceError) : Prop :=
  ∃ lines, error.Within lines

/-- An error that a reading finds in some piece of code, and that points at a line of it. -/
def SourceError.OfReading (error : SourceError) : Prop :=
  ∃ lines, error.Inside lines

theorem SourceError.OfReading.reported {error : SourceError} (ofReading : error.OfReading) : error.Reported :=
  ofReading.imp fun _ inside => inside.toWithin

theorem SourceError.OfReading.ne_assertion {error : SourceError} (ofReading : error.OfReading)
    (space function : Text) (fault : AssertionFault) : error.cause ≠ .assertion space function fault :=
  ofReading.elim fun _ inside => inside.inCode.ne_assertion space function fault

theorem SourceError.Reported.relocate {error : SourceError} (reported : error.Reported) (down : Nat) :
    (error.relocate down).Reported :=
  reported.elim fun lines within => ⟨lines + down, within.relocate down⟩

/-- An outcome that can fail with allowed errors only. -/
def Reports {α : Type} (allowed : SourceError → Prop) (outcome : Except SourceError α) : Prop :=
  ∀ ⦃error⦄, outcome = .error error → allowed error

namespace Reports

variable {α β : Type} {allowed allowed' : SourceError → Prop}

theorem ok (value : α) : Reports allowed (.ok value) := by
  intro error failed
  cases failed

/-- A failure reports its error. -/
theorem error {error : SourceError} (here : allowed error) :
    Reports allowed (.error error : Except SourceError α) := by
  intro _ failed
  cases failed
  exact here

/-- An error of code at an index is reported inside of the text. -/
theorem ofIndex {cause : Cause} (inCode : cause.InCode) (text : Text) (index : Nat) :
    Reports (SourceError.Inside (lineCount text))
      (.error (.ofIndex cause text index) : Except SourceError α) :=
  error (.ofIndex inCode text index)

theorem mono {outcome : Except SourceError α} (reports : Reports allowed outcome)
    (implies : ∀ error, allowed error → allowed' error) : Reports allowed' outcome :=
  fun error failed => implies error (reports failed)

/-- What reports inside of lines reports inside of more lines. -/
theorem within {lines lines' : Nat} {outcome : Except SourceError α}
    (reports : Reports (SourceError.Inside lines) outcome) (le : lines ≤ lines') :
    Reports (SourceError.Inside lines') outcome :=
  reports.mono fun _ inside => inside.mono le

theorem ofReading {lines : Nat} {outcome : Except SourceError α}
    (reports : Reports (SourceError.Inside lines) outcome) : Reports SourceError.OfReading outcome :=
  reports.mono fun _ inside => ⟨lines, inside⟩

theorem reported {lines : Nat} {outcome : Except SourceError α}
    (reports : Reports (SourceError.Inside lines) outcome) : Reports SourceError.Reported outcome :=
  reports.ofReading.mono fun _ ofReading => ofReading.reported

/-- Two steps report what each of them does. -/
theorem bind {outcome : Except SourceError α} {next : α → Except SourceError β}
    (first : Reports allowed outcome)
    (second : ∀ value, outcome = .ok value → Reports allowed (next value)) :
    Reports allowed (outcome >>= next) := by
  cases outcome with
  | ok value => exact second value rfl
  | error error => exact Reports.error (first rfl)

/-- Changed errors are reported as they are changed. -/
theorem mapError {outcome : Except SourceError α} {change : SourceError → SourceError}
    (first : Reports allowed outcome) (changes : ∀ error, allowed error → allowed' (change error)) :
    Reports allowed' (outcome.mapError change) := by
  cases outcome with
  | ok value => exact ok value
  | error found => exact error (changes found (first rfl))

/-- Steps for the values of a list report what each of them does. -/
theorem mapM {step : α → Except SourceError β} {values : List α}
    (each : ∀ value ∈ values, Reports allowed (step value)) : Reports allowed (values.mapM step) := by
  induction values with
  | nil => exact ok []
  | cons value values ih =>
    rw [List.mapM_cons]
    obtain ⟨here, further⟩ := List.forall_mem_cons.mp each
    exact here.bind fun first _ => (ih further).bind fun others _ => ok (first :: others)

/-- Steps of a fold report what each of them does. -/
theorem foldlM {step : β → α → Except SourceError β} {values : List α}
    (each : ∀ made, ∀ value ∈ values, Reports allowed (step made value)) (made : β) :
    Reports allowed (values.foldlM step made) := by
  induction values generalizing made with
  | nil => exact ok made
  | cons value values ih =>
    rw [List.foldlM_cons]
    refine (each made value List.mem_cons_self).bind fun next _ => ih ?_ next
    exact fun made value member => each made value (List.mem_cons_of_mem _ member)

end Reports

/-! ## Flaws -/

/-- The flaw of a mode is a cause of a scan. -/
theorem Mode.ofScan_of_flaw? {mode : Mode} {cause : Cause} (flawed : mode.flaw? = some cause) :
    cause.OfScan := by
  cases mode with
  | code => cases flawed
  | lineComment => cases flawed
  | slash => exact Option.some.inj flawed ▸ .unterminatedLiteral _
  | literal delimiter => exact Option.some.inj flawed ▸ .unterminatedLiteral _
  | escape delimiter => exact Option.some.inj flawed ▸ .unterminatedLiteral _
  | blockComment => exact Option.some.inj flawed ▸ .unterminatedComment
  | blockStar => exact Option.some.inj flawed ▸ .unterminatedComment

/-- The flaw of a nesting is a cause of a scan. -/
theorem Nesting.ofScan_of_flaw? {nesting : Nesting} {flaw : Flaw}
    (flawed : nesting.flaw? = some flaw) :
    flaw.cause.OfScan := by
  unfold flaw? at flawed
  split at flawed
  · next cause found =>
    obtain rfl := Option.some.inj flawed
    exact Mode.ofScan_of_flaw? found
  · obtain ⟨group, -, rfl⟩ := Option.map_eq_some_iff.mp flawed
    exact .unbalanced _

/-- What keeps a nesting from closing is a cause of a scan. -/
theorem Nesting.ofScan_of_closesAt {nesting : Nesting} {offset : Nat} {text : Text} {flaw : Flaw}
    (failed : nesting.closesAt offset text = .error (some flaw)) : flaw.cause.OfScan := by
  induction text generalizing nesting offset with
  | nil => exact ofScan_of_flaw? (Except.error.inj failed)
  | cons c rest ih =>
    rw [closesAt] at failed
    split at failed
    · cases failed
    · exact ih failed

namespace Source

/-- What keeps a gap from ending is a cause of a scan. -/
theorem ofScan_of_gapFrom {mode : Mode} {opened offset : Nat} {text : Text} {flaw : Flaw}
    (failed : gapFrom mode opened offset text = .error flaw) : flaw.cause.OfScan := by
  fun_induction gapFrom mode opened offset text with
  | case1 mode opened offset cause found =>
    cases failed
    exact Mode.ofScan_of_flaw? found
  | case2 => cases failed
  | case3 opened offset c rest blank ih => exact ih failed
  | case4 opened offset rest blank ih => exact ih failed
  | case5 opened offset rest blank ih => exact ih failed
  | case6 => cases failed
  | case7 => cases failed
  | case8 mode opened offset c rest away ih => exact ih failed

/-- What keeps comments from being stripped is a cause of a scan. -/
theorem ofScan_of_stripCommentsFrom {mode : Mode} {opened offset : Nat} {text : Text} {flaw : Flaw}
    (failed : stripCommentsFrom mode opened offset text = .error flaw) : flaw.cause.OfScan := by
  induction text generalizing mode opened offset with
  | nil =>
    rw [stripCommentsFrom] at failed
    split at failed
    · next cause found =>
      cases failed
      exact Mode.ofScan_of_flaw? found
    · cases failed
  | cons c rest ih =>
    rw [stripCommentsFrom] at failed
    cases further :
        stripCommentsFrom (mode.next c) (if mode = .code then offset else opened) (offset + 1) rest with
    | ok kept => simp [further, bind, Except.bind, pure, Except.pure] at failed
    | error found =>
      simp only [further, bind, Except.bind, Except.error.injEq] at failed
      subst failed
      exact ih further

/-- What keeps a text from being split is a cause of a scan. -/
theorem ofScan_of_segmentsFrom {nesting : Nesting} {offset : Nat} {text : Text} {flaw : Flaw}
    (failed : segmentsFrom nesting offset text = .error flaw) : flaw.cause.OfScan := by
  obtain ⟨ending, -, flawed⟩ := exists_flaw_of_segmentsFrom failed
  exact Nesting.ofScan_of_flaw? flawed

/-! ## Scans -/

/-- A flaw of a scan is reported inside of the text. -/
theorem reports_flaw {α : Type} {flaw : Flaw} (ofScan : flaw.cause.OfScan) (text : Text)
    (base : Nat) :
    Reports (SourceError.OfScan (lineCount text))
      (.error (flaw.toError text base) : Except SourceError α) :=
  .error ⟨.ofIndex ofScan.inCode text (base + flaw.offset), ofScan⟩

/-- Matching an opener fails as a scan does. -/
theorem matchBracket_ofScan {source : Text} (bracket : Bracket) {index : Nat}
    (opens : (source.drop index).head? = some bracket.opener) :
    Reports (SourceError.OfScan (lineCount source)) (matchBracket source index) := by
  obtain ⟨text, here⟩ := List.head?_eq_some_iff.mp opens
  simp only [matchBracket, here, Bracket.ofOpener?_opener]
  split
  · exact .ok _
  · next flaw failed =>
    cases flaw with
    | none => exact reports_flaw (.unbalanced bracket) source index
    | some flaw => exact reports_flaw (Nesting.ofScan_of_closesAt failed) source index

/-- Matching an opener fails inside of the text. -/
theorem matchBracket_reports {source : Text} (bracket : Bracket) {index : Nat}
    (opens : (source.drop index).head? = some bracket.opener) :
    Reports (SourceError.Inside (lineCount source)) (matchBracket source index) :=
  (matchBracket_ofScan bracket opens).mono fun _ found => found.toInside

/-- Matching a delimiter fails as a scan does. -/
theorem matchLiteral_ofScan {source : Text} {delimiter : Char} {index : Nat}
    (delimits : Mode.isDelimiter delimiter = true)
    (opens : (source.drop index).head? = some delimiter) :
    Reports (SourceError.OfScan (lineCount source)) (matchLiteral source index) := by
  obtain ⟨text, here⟩ := List.head?_eq_some_iff.mp opens
  simp only [matchLiteral, here, delimits, ↓reduceIte]
  split
  · exact .ok _
  · exact .error ⟨.ofIndex (.unterminatedLiteral delimiter) source index, .unterminatedLiteral delimiter⟩

/-- Matching a delimiter fails inside of the text. -/
theorem matchLiteral_reports {source : Text} {delimiter : Char} {index : Nat}
    (delimits : Mode.isDelimiter delimiter = true)
    (opens : (source.drop index).head? = some delimiter) :
    Reports (SourceError.Inside (lineCount source)) (matchLiteral source index) :=
  (matchLiteral_ofScan delimits opens).mono fun _ found => found.toInside

/-- Skipping a gap fails as a scan does. -/
theorem skip_ofScan (source : Text) (index : Nat) :
    Reports (SourceError.OfScan (lineCount source)) (skip source index) := by
  unfold skip
  split
  · exact .ok _
  · next flaw failed => exact reports_flaw (ofScan_of_gapFrom failed) source index

theorem skip_reports (source : Text) (index : Nat) :
    Reports (SourceError.Inside (lineCount source)) (skip source index) :=
  (skip_ofScan source index).mono fun _ found => found.toInside

/-- Stripping comments fails as a scan does. -/
theorem stripComments_ofScan (source : Text) :
    Reports (SourceError.OfScan (lineCount source)) (stripComments source) := by
  unfold stripComments
  cases stripped : stripCommentsFrom .code 0 0 source with
  | ok kept => exact .ok kept
  | error flaw => exact reports_flaw (ofScan_of_stripCommentsFrom stripped) source 0

theorem stripComments_reports (source : Text) :
    Reports (SourceError.Inside (lineCount source)) (stripComments source) :=
  (stripComments_ofScan source).mono fun _ found => found.toInside

/-- Splitting arguments fails as a scan does. -/
theorem splitArguments_ofScan (source : Text) :
    Reports (SourceError.OfScan (lineCount source)) (splitArguments source) := by
  unfold splitArguments
  split
  · exact .ok _
  · next flaw failed => exact reports_flaw (ofScan_of_segmentsFrom failed) source 0

theorem splitArguments_reports (source : Text) :
    Reports (SourceError.Inside (lineCount source)) (splitArguments source) :=
  (splitArguments_ofScan source).mono fun _ found => found.toInside

end Source

end JasmineConversion
